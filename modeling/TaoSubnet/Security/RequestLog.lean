import TaoSubnet.Lib.Runs
import TaoSubnet.Security.Challenge

/-!
# The target's log

`_count_request` of `targets/sqli_v1/app.py`, with its handler threads side by side, and the line that
`serve` prints before them. A thread takes its number under the lock, and prints it outside of it. A
`print` is two writes, the text and the end of the line, and other threads may write in between.
-/

namespace TaoSubnet

/-- The threads, by the numbers they took, and what they have written: the texts on each line. -/
structure RequestLog where
  count : Nat := 0
  /-- A number is taken, and nothing of it written. -/
  counted : List Nat := []
  /-- Its text is written, and not the end of the line. -/
  ending : List Nat := []
  lines : List (List Nat) := []
  /-- What is on the last line, which is not ended. -/
  line : List Nat := []

inductive LogAction
  | count
  | write (n : Nat)
  | endLine (n : Nat)

namespace RequestLog

def step (s : RequestLog) : LogAction → Option RequestLog
  | .count => some { s with count := s.count + 1, counted := s.counted ++ [s.count + 1] }
  | .write n =>
    if n ∈ s.counted then
      some { s with counted := s.counted.erase n, ending := s.ending ++ [n], line := s.line ++ [n] }
    else none
  | .endLine n =>
    if n ∈ s.ending then
      some { s with ending := s.ending.erase n, lines := s.lines ++ [s.line], line := [] }
    else none

/-- The same, with no thread writing while another is between its two writes. -/
def stepAlone (s : RequestLog) : LogAction → Option RequestLog
  | .write n => if s.ending = [] then s.step (.write n) else none
  | action => s.step action

/-- `f"REQUESTS:{n}"`. -/
def reportText (n : Nat) : List Char := "REQUESTS:".toList ++ Nat.toDigits 10 n

/-- What has been written. -/
def text (s : RequestLog) : List Char :=
  (s.lines.flatMap fun line => line.flatMap reportText ++ ['\n']) ++ s.line.flatMap reportText

end RequestLog

/-- What `serve` prints. -/
def servingLine (challenge : Challenge) : List Char :=
  ("sqli-target listening on 0.0.0.0:" ++ toString TARGET_PORT ++ " (vuln at " ++
    challenge.vulnerableEndpoint ++ "?" ++ challenge.vulnerableParameter ++ "=)").toList

end TaoSubnet
