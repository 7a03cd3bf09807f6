import TaoSubnet.Lib.FString

/-!
# Announcements

`masxai/discord.py`: the two messages, and what of them is posted to the webhook.
-/

namespace TaoSubnet

open Py

namespace Discord

/-- `_MAX_CONTENT_CHARS`. -/
def MAX_CONTENT_CHARS : Nat := 1900

/-- `_MAX_LINES`. -/
def MAX_LINES : Nat := 12

/-- What Discord rejects a message over. -/
def contentLimit : Nat := 2000

/-- `_FORBIDDEN_SUBSTRINGS`. -/
def FORBIDDEN_SUBSTRINGS : List String :=
  ["encrypted_key_blob", "key_fingerprint", "api_key", "sk-"]

/-- `_short_hotkey`. -/
def shortHotkey (hotkey : PyStr) : List Segment :=
  if hotkey.length ≤ 8 + 4 + 1 then [.text hotkey]
  else [.text (hotkey.take 8), .own "...", .text (hotkey.drop (hotkey.length - 4))]

/-- A text that counts as true. -/
def truthy (text : Option PyStr) : Option PyStr := text.filter fun s => !s.isEmpty

/-- `_network_tag`. -/
def networkTag (netuid : Option Int) (network : Option PyStr) : List Segment :=
  match truthy network, netuid with
  | none, none => []
  | some name, none => [.own "[", .text name, .own "] "]
  | none, some n => [.own "[", .own "netuid ", .int n, .own "] "]
  | some name, some n => [.own "[", .text name, .own " · ", .own "netuid ", .int n, .own "] "]

def uidPart (uid : Option Int) : List Segment :=
  match uid with
  | some n => [.own " | UID ", .int n]
  | none => []

/-- The reason after a line, if there is one. -/
def reasonPart (reason : Option PyStr) : List Segment :=
  match truthy reason with
  | some text => [.own " - ", .text text]
  | none => []

/-- The line that counts what is not shown. -/
def moreLine (count : Nat) : List Segment :=
  [.own "...and ", .int (count - MAX_LINES : Nat), .own " more"]

/-! ## A submission -/

/-- The protocol's answer for a slot, as far as it has the attributes. -/
structure SlotResult where
  slot : Option Int := none
  provider : Option PyStr := none
  model : Option PyStr := none
  accepted : Option Bool := none
  reason : Option PyStr := none
  deriving DecidableEq

namespace SlotResult

def isAccepted (row : SlotResult) : Bool := row.accepted.getD false

/-- A text, or the mark of an attribute that is not there. -/
def shown (text : Option PyStr) : Segment :=
  match text with
  | some s => .text s
  | none => .own "?"

def shownSlot (slot : Option Int) : Segment :=
  match slot with
  | some n => .int n
  | none => .own "?"

/-- The line of a slot. -/
def line (row : SlotResult) : List Segment :=
  if row.isAccepted then
    [.own ":white_check_mark: slot ", shownSlot row.slot, .own " `", shown row.provider, .own "/",
      shown row.model, .own "`"]
  else
    [.own ":x: slot ", shownSlot row.slot, .own " `", shown row.provider, .own "/",
      shown row.model, .own "`"] ++ reasonPart row.reason

end SlotResult

/-- The lines of `format_submission_message`; none where there is nothing worth posting. -/
def submissionLines (hotkey : PyStr) (uid : Option Int) (results : List SlotResult)
    (netuid : Option Int) (network : Option PyStr) : Option (List (List Segment)) :=
  let rows := results.mergeSort fun a b => a.slot.getD 0 ≤ b.slot.getD 0
  if rows.isEmpty then none
  else
    let accepted := rows.countP SlotResult.isAccepted
    let head := networkTag netuid network ++ [.own "**LLM key submission** ", .own "`"] ++
      shortHotkey hotkey ++ [.own "`"] ++ uidPart uid ++
      [.own " - ", .int accepted, .own "/", .int rows.length, .own " accepted"]
    some (head :: (rows.take MAX_LINES).map SlotResult.line ++
      if MAX_LINES < rows.length then [moreLine rows.length] else [])

/-! ## A round -/

/-- A relay that failed. -/
structure RelayFailure where
  hotkey : PyStr
  uid : Option Int
  error : Option PyStr
  deriving DecidableEq

def RelayFailure.line (failure : RelayFailure) : List Segment :=
  [.own "`"] ++ shortHotkey failure.hotkey ++ [.own "`"] ++ uidPart failure.uid ++
    reasonPart failure.error

/-- The lines of `format_round_summary`. -/
def summaryLines (asked answered contributed : Int) (failures : List RelayFailure)
    (netuid : Option Int) (network : Option PyStr) : List (List Segment) :=
  let head := networkTag netuid network ++
    [.own "**Key round** - ", .own "asked ", .int asked, .own " | answered ", .int answered,
      .own " | contributed ", .int contributed]
  head :: if failures.isEmpty then [] else
    [.own ":warning: ", .int failures.length, .own " submission(s) could not be relayed:"] ::
      (failures.take MAX_LINES).map RelayFailure.line ++
      if MAX_LINES < failures.length then [moreLine failures.length] else []

/-! ## What is posted -/

/-- What the validator announces. -/
inductive Announcement
  | submission (hotkey : PyStr) (uid : Option Int) (results : List SlotResult)
      (netuid : Option Int) (network : Option PyStr)
  | roundSummary (asked answered contributed : Int) (failures : List RelayFailure)
      (netuid : Option Int) (network : Option PyStr)

/-- The text of an announcement before it is cut, part by part. -/
def Announcement.parts : Announcement → Option (List Segment)
  | .submission hotkey uid results netuid network =>
    (submissionLines hotkey uid results netuid network).map joinLines
  | .roundSummary asked answered contributed failures netuid network =>
    some (joinLines (summaryLines asked answered contributed failures netuid network))

/-- `format_submission_message` and `format_round_summary`. -/
def Announcement.format (a : Announcement) : Except Exc (Option PyStr) :=
  match a.parts with
  | none => .ok none
  | some parts => (fstring parts).map fun full => some (full.take MAX_CONTENT_CHARS)

/-- `webhook_url`, of what the environment is set to. -/
def webhookUrl (setting : Option PyStr) : PyStr := PyStr.strip (setting.getD [])

/-- `publish_key_submission` and `publish_round_summary`: the content that `post_message` hands to the
    client, if it comes to that. -/
def Announcement.posted (setting : Option PyStr) (a : Announcement) : Option PyStr :=
  if (webhookUrl setting).isEmpty then none
  else
    match a.format with
    | .ok content => content
    | .error _ => none

end Discord

end TaoSubnet
