import TaoSubnet.Lib.Prog
import TaoSubnet.Lib.Dict
import TaoSubnet.Lib.Dumps
import TaoSubnet.Lib.Float
import TaoSubnet.Lib.Text
import TaoSubnet.Lib.Ledger
import TaoSubnet.Lib.PyStr
import TaoSubnet.Lib.Runs
import TaoSubnet.Lib.Json
import TaoSubnet.Security.Behavior
import TaoSubnet.Security.Challenge
import TaoSubnet.Security.Findings
import TaoSubnet.Security.TaskScore
import TaoSubnet.Security.Outside
import TaoSubnet.Security.Replay
import TaoSubnet.Security.Verdict
import TaoSubnet.Security.DockerOps
import TaoSubnet.Security.Structure
import TaoSubnet.Security.Db
import TaoSubnet.Security.DryRun
import TaoSubnet.Security.Registry
import TaoSubnet.Security.Pipeline
import TaoSubnet.Security.Job
import TaoSubnet.Security.CategoryScores
import TaoSubnet.Security.Evaluate
import TaoSubnet.Security.Marketplace
import TaoSubnet.Security.Round
import TaoSubnet.Security.Concurrent
import TaoSubnet.Security.Jobs
import TaoSubnet.Security.Crashes
import TaoSubnet.LlmKey.Scoring
import TaoSubnet.LlmKey.State
import TaoSubnet.LlmKey.Epoch
import TaoSubnet.LlmKey.Poll
import TaoSubnet.LlmKey.Weights
import TaoSubnet.LlmKey.Contribution
import TaoSubnet.Proof.LlmKey.Windows
import TaoSubnet.Proof.LlmKey.Clock
import TaoSubnet.Proof.LlmKey.Epochs
import TaoSubnet.Proof.LlmKey.Accounts
import TaoSubnet.Proof.LlmKey.Tiers
import TaoSubnet.Proof.LlmKey.Scores
import TaoSubnet.Proof.Security.Frames
import TaoSubnet.Proof.Security.Rulings
import TaoSubnet.Proof.Security.Records
import TaoSubnet.Proof.Security.Target
import TaoSubnet.Proof.Security.FindingsErrors
import TaoSubnet.Proof.Security.Teardown
import TaoSubnet.Proof.Security.Calls
import TaoSubnet.Proof.Security.Verdicts
import TaoSubnet.Proof.Security.Pinned
import TaoSubnet.Proof.Security.Credits
import TaoSubnet.Proof.Security.Rounds
import TaoSubnet.Proof.Security.Dedupe
import TaoSubnet.Proof.Security.Proven
import TaoSubnet.Proof.Security.Statements
import TaoSubnet.Proof.Security.Ownership
import TaoSubnet.Proof.Security.Workers
import TaoSubnet.Proof.Security.Crashes
import TaoSubnet.Proof.LlmKey.Weights
import TaoSubnet.Proof.LlmKey.Contribution
import TaoSubnet.Proof.Security.StraceLog
import TaoSubnet.Proof.Security.OpenPaths
import TaoSubnet.Proof.Security.Reproduction
import TaoSubnet.Proof.LlmKey.Polls
import TaoSubnet.Proof.LlmKey.Bounds
import TaoSubnet.Proof.LlmKey.Kills
import TaoSubnet.Lib.Numbers
import TaoSubnet.LlmKey.StateFile
import TaoSubnet.Proof.LlmKey.StateFile
import TaoSubnet.Proof.LlmKey.Emission
import TaoSubnet.Proof.LlmKey.Evidence
import TaoSubnet.Proof.LlmKey.Efficiency
import TaoSubnet.Proof.LlmKey.Gate
import TaoSubnet.Proof.Security.Identity
import TaoSubnet.Proof.LlmKey.Slots
import TaoSubnet.Proof.Security.FindingsContract
import TaoSubnet.Proof.Security.Archives
import TaoSubnet.Proof.Security.Metadata
import TaoSubnet.Lib.Files
import TaoSubnet.Lib.Named
import TaoSubnet.Security.Extraction
import TaoSubnet.Proof.Security.Confinement
import TaoSubnet.Proof.Security.Manifest
import TaoSubnet.Proof.Security.Twins
import TaoSubnet.Proof.Security.Leftovers
import TaoSubnet.Proof.Security.Grading
import TaoSubnet.Security.Capability
import TaoSubnet.Proof.Security.Capability
import TaoSubnet.Proof.Security.CategoryScores
import TaoSubnet.Proof.LlmKey.Relay
import TaoSubnet.Proof.Security.BlindExtraction
import TaoSubnet.Lib.Url
import TaoSubnet.Proof.Security.Addressing
import TaoSubnet.Security.ScoreFile
import TaoSubnet.Proof.Security.ScoreFile
import TaoSubnet.Proof.Security.DownloadBound
import TaoSubnet.Proof.Security.CommandArguments
import TaoSubnet.Proof.Security.LogEvidence
import TaoSubnet.Proof.Security.Reporting
import TaoSubnet.Lib.Attempts
import TaoSubnet.LlmKey.Client
import TaoSubnet.Proof.LlmKey.Requests
import TaoSubnet.Lib.Substring
import TaoSubnet.Security.Publishing
import TaoSubnet.Proof.Security.Publishable
import TaoSubnet.Lib.FString
import TaoSubnet.LlmKey.Discord
import TaoSubnet.Proof.LlmKey.Announcements
import TaoSubnet.Lib.JsonText
import TaoSubnet.Lib.Sqlite
import TaoSubnet.Security.SubmissionsTable
import TaoSubnet.Proof.Security.ReadBack
import TaoSubnet.Lib.JsonFile
import TaoSubnet.Proof.LlmKey.Restart
import TaoSubnet.Security.TargetApp
import TaoSubnet.Proof.Security.Provision
import TaoSubnet.Lib.Dialogue
import TaoSubnet.Proof.Security.OnlyByInjection
import TaoSubnet.Proof.Security.Served
import TaoSubnet.Proof.Security.Wire
import TaoSubnet.Proof.Security.ReplayLuck
import TaoSubnet.Security.RequestLog
import TaoSubnet.Proof.Security.RequestCount
import TaoSubnet.Proof.Security.BlobExchange
