import JobBinding.Binding
import JobBinding.Text.Blank
import JobBinding.Text.Utf8

/-!
# Tools

Programs that a process runs to learn about its surroundings. What a tool prints is read as UTF-8,
and a part that is none is shown as U+FFFD.
-/

namespace JobBinding

/-- What a tool left when it ended. -/
structure ToolRun where
  status : Nat
  stdout : List UInt8
  stderr : List UInt8
  deriving DecidableEq, Repr

/-- The installed tools, each with what it does when it is run. -/
abbrev Tools := String → Option ToolRun

namespace Tools

/-- The listing that a tool prints, if it is there and succeeds. -/
def listing (tools : Tools) (tool : String) : Except Failure String :=
  match tools tool with
  | none => .error (.probe (.toolMissing tool))
  | some run =>
    let stdout := Text.Utf8.decodeLossy run.stdout
    if run.status = 0 then .ok stdout
    else .error (.probe (.toolFailed tool run.status stdout (Text.Utf8.decodeLossy run.stderr)))

/-- The tool of the workflow manager, which knows the current cluster. -/
def workflowManager : String := "row"

/-- The name of the current cluster, as the workflow manager tells it. -/
def clusterName (tools : Tools) : Except Failure String :=
  match tools workflowManager with
  | none => .error (.detection .toolMissing)
  | some run =>
    if run.status = 0 then .ok (Text.trim (Text.Utf8.decodeLossy run.stdout))
    else .error (.detection (.toolFailed run.status (Text.Utf8.decodeLossy run.stderr)))

end Tools

end JobBinding
