import JobBinding.Cluster.Catalog
import JobBinding.CommandLine.Arguments
import JobBinding.CommandLine.Table
import JobBinding.Json.Value
import JobBinding.Summary
import JobBinding.Verdict

/-!
# Output

What commands show, and how it looks: lines and tables for a terminal, or values of JSON whose
fields are sorted by name. Failures are printed in the second form only.
-/

namespace JobBinding.CommandLine

/-- Something that a command shows. -/
inductive Shown where
  | clusters (catalog : Catalog)
  | workflow (path : String) (workflow : Workflow)
  | verdict (path : String) (verdict : Verdict)
  | summaries (all : List Summary)
  | completion (shell : String)

namespace Shown

/-! ## For a terminal -/

/-- A truth value in a table. -/
def yesNo (b : Bool) : String :=
  if b then "yes" else "no"

def clusterTable (colors : Bool) (catalog : Catalog) : String :=
  Table.render colors
    (["Name", "CPUs/node", "GPUs/node", "GPU arch", "Shared"].map Cell.ofTitle)
    (catalog.entries.map fun (name, c) =>
      [.ofText name, .ofNat c.cpus.toNat, .ofNat c.gpus.toNat, .ofText c.vendor.name,
        .ofText (yesNo c.shared)])

def actionTable (colors : Bool) (workflow : Workflow) : String :=
  Table.render colors
    (["Action", "Processes", "Threads", "GPUs", "Launchers", "Walltime"].map Cell.ofTitle)
    (workflow.actions.map fun action =>
      [.ofText action.name, .ofNat action.processes.toNat, .ofNat action.threads.toNat,
        .ofNat action.gpus.toNat, .ofText (", ".intercalate action.launchers),
        .ofText action.walltime.clock])

def tagStyle : Tag → Style
  | .error => .red
  | .warn => .yellow
  | .passed => .green

/-- A count of lines with a tag, which has the style of the tag unless it is zero. -/
def countCell (n : Nat) (tag : Tag) : Cell :=
  if 0 < n then (Cell.ofNat n).inStyle (tagStyle tag) else .ofNat n

def statusCell (s : Summary) : Cell :=
  if s.isFailing then (Cell.ofText "FAILED").inStyle .red else (Cell.ofText "OK").inStyle .green

def summaryTable (colors : Bool) (all : List Summary) : String :=
  Table.render colors
    (["Report", "ERROR", "WARN", "PASSED", "Status"].map Cell.ofTitle)
    (all.map fun s =>
      [.ofText s.path, countCell s.errors .error, countCell s.warnings .warn,
        countCell s.passed .passed, statusCell s])

def verdictLines (colors : Bool) (verdict : Verdict) : String :=
  String.join (verdict.lines.map fun (tag, message) =>
    paint colors (tagStyle tag) tag.name ++ ": " ++ message ++ "\n")

/-! ## As JSON -/

def optionalText : Option String → Json.Plain
  | some t => .text t
  | none => .null

def capacityValue (c : Capacity) : Json.Plain :=
  .object
    [("cpus_per_node", .number c.cpus.toNat), ("gpu_arch", .text c.vendor.name),
      ("gpus_per_node", .number c.gpus.toNat), ("has_shared", .boolean c.shared)]

def actionValue (action : Action) : Json.Plain :=
  .object
    [("command", .text action.template), ("gpus_per_process", .number action.gpus.toNat),
      ("launchers", .array (action.launchers.map .text)), ("name", .text action.name),
      ("processes", .number action.processes.toNat),
      ("threads_per_process", .number action.threads.toNat),
      ("walltime", .text action.walltime.clock)]

/-- A workflow and the path of its document. -/
def workflowValue (path : String) (workflow : Workflow) : Json.Plain :=
  .object
    [("account", optionalText workflow.account), ("actions", .array (workflow.actions.map actionValue)),
      ("cluster", .text workflow.cluster), ("path", .text path),
      ("setup", optionalText workflow.setup)]

/-- A verdict and the path of its report. -/
def verdictValue (path : String) (verdict : Verdict) : Json.Plain :=
  .object
    [("lines", .array (verdict.lines.map fun (tag, message) =>
        .object [("message", .text message), ("tag", .text tag.name)])),
      ("passed", .boolean verdict.isPassed), ("path", .text path)]

def summaryValue (s : Summary) : Json.Plain :=
  .object
    [("errors", .number s.errors), ("passed", .number s.passed), ("path", .text s.path),
      ("warnings", .number s.warnings)]

/-- A value on lines of its own. -/
def printValue (value : Json.Plain) : String :=
  Json.render value ++ "\n"

/-! ## Completion scripts -/

/-- The words that can begin a call. -/
def commandNames : List String :=
  ["init", "execute", "summary", "cluster", "generate-completion"]

/-- A script that makes a shell complete the names of commands. -/
def completionScript (shell : String) : String :=
  let names := " ".intercalate commandNames
  match shell with
  | "bash" => "complete -W '" ++ names ++ "' bindcheck\n"
  | "zsh" => "compctl -k '(" ++ names ++ ")' bindcheck\n"
  | "fish" => "complete -c bindcheck -n __fish_use_subcommand -a '" ++ names ++ "'\n"
  | _ => "# bindcheck: " ++ names ++ "\n"

/-! ## Printing -/

def print (mode : OutputMode) (colors : Bool) : Shown → String
  | .clusters catalog => match mode with
    | .terminal => clusterTable colors catalog
    | .json => printValue (.object (catalog.entries.map fun (name, c) => (name, capacityValue c)))
  | .workflow path w => match mode with
    | .terminal =>
      "Workflow for cluster " ++ paint colors .bold w.cluster ++ " written to " ++ path ++ "\n" ++
        actionTable colors w
    | .json => printValue (workflowValue path w)
  | .verdict path v => match mode with
    | .terminal => paint colors .bold path ++ "\n" ++ verdictLines colors v
    | .json => printValue (verdictValue path v)
  | .summaries all => match mode with
    | .terminal => summaryTable colors all
    | .json => printValue (.array (all.map summaryValue))
  | .completion shell => completionScript shell

def printFailure (mode : OutputMode) (message : String) : String :=
  match mode with
  | .terminal => ""
  | .json => printValue (.object [("error", .text message)])

end Shown

end JobBinding.CommandLine
