import TaoSubnet.Security.Db

/-!
# The outside: Docker, and HTTP

Everything the validator does not decide itself. A `docker` command is its argument list; what comes
back is a finished process or a raise, and the outside may have changed. Nothing is assumed of the
answers here: a module that needs Docker to behave in some way says so in its theorems.

`World` adds the validator's database, and the trace, the one thing the source does not have: every
command in the order it was issued, with the state of the outside it met, and every directory that
was deleted.
-/

namespace TaoSubnet

open Py

structure CompletedProcess where
  returncode : Int
  stdout : String := ""
  stderr : String := ""
  deriving DecidableEq, Repr

/-- A raise covers a missing CLI, a timeout and any other `OSError`. -/
abbrev Outcome := Except Exc CompletedProcess

structure HttpRequest where
  url : PyStr
  /-- The body of a POST; a GET has none. -/
  data : Option PyStr := none
  deriving DecidableEq, Repr

structure HttpResponse where
  status : Nat
  body : List UInt8
  deriving DecidableEq, Repr

structure Outside (δ : Type) where
  docker : δ → List String → Outcome × δ
  http : δ → HttpRequest → Except Exc HttpResponse × δ

inductive Event (δ : Type)
  | docker (before : δ) (args : List String)
  | rmtree (path : String)

structure World (δ : Type) where
  outside : δ
  trace : List (Event δ) := []
  db : Db := {}

variable {δ : Type}

/-- `subprocess.run(["docker", *args], …)`. -/
def docker (o : Outside δ) (args : List String) : Prog (World δ) Exc CompletedProcess := fun w =>
  ((o.docker w.outside args).1,
    { w with outside := (o.docker w.outside args).2, trace := w.trace ++ [.docker w.outside args] })

/-- `urllib.request.urlopen(request).read()`. -/
def urlopen (o : Outside δ) (request : HttpRequest) : Prog (World δ) Exc HttpResponse := fun w =>
  ((o.http w.outside request).1, { w with outside := (o.http w.outside request).2 })

/-- `shutil.rmtree(path, ignore_errors=True)`. -/
def rmtree (path : String) : Prog (World δ) Exc Unit :=
  Prog.modify fun w => { w with trace := w.trace ++ [.rmtree path] }

def DOCKER_CLI_TIMEOUT_S : Nat := 60

end TaoSubnet
