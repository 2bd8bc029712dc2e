import TensorGraph.Batch
import TensorGraph.Command.Inspection
import TensorGraph.Command.Invocation
import TensorGraph.Files.Select

/-!
# Running commands

A command reads and writes files, prints to two streams and ends with a code: zero if all went well,
one after an error, two for arguments that make no sense.
-/

namespace TensorGraph.Command

/-- The files that a command leaves, what it prints and its code. -/
structure Result where
  files : FileTree
  output : String := ""
  errors : String := ""
  code : Nat := 0
deriving DecidableEq, Repr, Inhabited

def versionText : String := "graph-mend 0.1.0"

def usageText : String := String.join <| [
  "Usage: graph-mend [-c <CONFIG>] [-v]... <COMMAND>",
  "",
  "  repair <PATHS>... [--in-place] [--suffix <SUFFIX>] [--min-ir-version <VERSION>]",
  "         [--no-infer] [-w <WORKERS>]",
  "  manifest <PATHS>... [--root <ROOT>] [-f json|text] [-o <OUTPUT>]",
  "  inspect -m <MODEL>"].map (· ++ "\n")

def misuseCode : Nat := 2

def abortCode : Nat := 101

def unlines (lines : List String) : String := String.join (lines.map (· ++ "\n"))

namespace Result

def printed (r : Result) (lines : List String) : Result :=
  { r with output := r.output ++ unlines lines }

def warned (r : Result) (lines : List String) : Result :=
  { r with errors := r.errors ++ unlines lines }

def failed (r : Result) (message : String) : Result :=
  { r.warned ["Error: " ++ message] with code := 1 }

/-- A batch with failures is an error. -/
def concluded {α : Type} (r : Result) (b : Batch α) : Result :=
  if b.allSucceeded then r else r.failed s!"{b.failures.length} file(s) failed"

end Result

/-- An error with its cause, the lines of which are indented. -/
def withCause (message cause : String) : String :=
  message ++ "\n\nCaused by:\n" ++
    "\n".intercalate ((Text.split '\n' cause).map fun line => "    " ++ line)

def failureLine (failure : Path × RepairError) : String :=
  s!"  FAIL  {failure.1.text}: {failure.2.message}"

def repairLines (success : Path × FileRepair) : List String := [
  match success.2.written? with
    | some written => s!"  ok    {success.1.text} -> {written.text}"
    | none => s!"  clean {success.1.text}",
  "        " ++ success.2.report.summary]

/-- Repairs the models in the files selected, without the copies from earlier runs. -/
def repair (t : FileTree) (s : Settings) (selectors : List String) : Result :=
  match s.check with
  | .error f => Result.failed { files := t } (RepairError.settings f).message
  | .ok _ =>
    match t.select selectors with
    | .error e => Result.failed { files := t } e.message
    | .ok selected =>
      match selected.filter fun p => !s.isOutput p with
      | [] => Result.failed { files := t } "no model files selected"
      | paths =>
        let (batch, files) := t.repairFiles s paths
        let lines := batch.successes.flatMap repairLines ++ batch.failures.map failureLine ++
          ["", "  " ++ batch.summary]
        (Result.printed { files } lines).concluded batch

/-- The folder from which keys lead to files, unless one is given: the first selector if it is a
folder. -/
def usualRoot (t : FileTree) (selectors : List String) : Path :=
  match selectors.map Path.ofText with
  | p :: _ => if t.isFolder p then p else .ofText "."
  | [] => .ofText "."

def Format.render (format : Format) (report : ManifestReport) : String :=
  match format with
  | .json => report.toJson.text
  | .table => report.table

/-- Lists what the models in the files selected expect as their input. -/
def manifest (t : FileTree) (selectors : List String) (root? : Option String) (format : Format)
    (output? : Option String) : Result :=
  match t.select selectors with
  | .error e => Result.failed { files := t } e.message
  | .ok paths =>
    let batch := t.manifests paths
    let root := (root?.map Path.ofText).getD (usualRoot t selectors)
    let text := format.render (batch.manifestReport root)
    let r := Result.warned { files := t } (batch.failures.map failureLine)
    match output? with
    | none => (r.printed [text]).concluded batch
    | some output =>
      match t.write (.ofText output) (Text.toBytes text) with
      | .error f => r.failed (withCause s!"writing manifest to '{output}'" f.message)
      | .ok files => { r with files }.concluded batch

/-- Describes the model in a file, and what a propagation would find. -/
def inspect (t : FileTree) (s : Settings) (model : String) : Result :=
  let r := Result.printed { files := t } Inspection.banner
  match t.loadModel (.ofText model) with
  | .error e => r.failed s!"failed to load model from '{model}': {e.message}"
  | .ok m =>
    let r := r.printed (Inspection.descriptionLines m)
    if !s.inferShapes then r.printed ["  Shape inference disabled by configuration."]
    else
      let r := r.printed (Inspection.removalLines m.graph)
      match m.graph.normalizeInputs.propagate .builtin m.propagationOpset with
      | .ok (_, report) => r.printed (Inspection.propagationLines report)
      | .error abort => { r.warned [abort.message] with code := abortCode }

def Action.run (a : Action) (t : FileTree) (s : Settings) : Result :=
  match a with
  | .repair selectors overrides => Command.repair t (overrides.apply s) selectors
  | .manifest selectors root? format output? =>
    Command.manifest t selectors root? format output?
  | .inspect model => Command.inspect t s model

def Invocation.run (i : Invocation) (t : FileTree) : Result :=
  match i.settings? with
  | none => i.action.run t {}
  | some path =>
    match t.readSettings (.ofText path) with
    | .ok s => i.action.run t s
    | .error f =>
      Result.failed { files := t }
        (withCause s!"loading configuration from '{path}'" (RepairError.settings f).message)

/-- Runs the program with some arguments. -/
def run (t : FileTree) (args : List String) : Result :=
  match Invocation.ofArgs args with
  | .ok i => i.run t
  | .error .version => Result.printed { files := t } [versionText]
  | .error .help => { files := t, output := usageText }
  | .error .misuse => { files := t, errors := usageText, code := misuseCode }

end TensorGraph.Command
