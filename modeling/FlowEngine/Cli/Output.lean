import FlowEngine.Cli.Event
import FlowEngine.Number.Decimal

/-!
# Output

* `Style` — how reports are printed: for people, as documents, or not at all.
* `Style.print` — what is printed for a report.
-/

namespace FlowEngine.Cli

open FlowEngine.Run

/-- How reports are printed. -/
inductive Style where
  | console (debug : Bool)
  | json (pretty : Bool)
  | quiet
  deriving DecidableEq, Inhabited

/-- The style that the options ask for; documents come before silence. -/
def Style.ofOptions (json quiet debug : Bool) : Style :=
  if json then .json false else if quiet then .quiet else .console debug

/-- Text for the standard output and for the standard error stream. -/
structure Printed where
  output : String
  errors : String
  deriving DecidableEq, Inhabited

namespace Printed

/-- No text. -/
def empty : Printed := ⟨"", ""⟩

/-- One text after another. -/
def append (a b : Printed) : Printed := ⟨a.output ++ b.output, a.errors ++ b.errors⟩

/-- A line of the output. -/
def outputLine (line : String) : Printed := ⟨line ++ "\n", ""⟩

/-- A line of the error stream. -/
def errorLine (line : String) : Printed := ⟨"", line ++ "\n"⟩

end Printed

/-! ## For people -/

/-- Milliseconds below a second, else seconds with one decimal place. -/
def durationText (milliseconds : Nat) : String :=
  if milliseconds < 1000 then toString milliseconds ++ "ms"
  else ((Binary64.ofNat milliseconds).div (Binary64.ofNat 1000)).fixedText 1 ++ "s"

/-- The mark of a status. -/
def statusMark : StepStatus → String
  | .succeeded => "✓"
  | .failed => "✗"
  | .paused => "⏸"
  | .running => "…"

/-- The line for a step. Its duration is shown only if asked for. -/
def stepLine (debug : Bool) (name : String) (status : StepStatus) (duration : Option Nat) :
    String :=
  let line := "  " ++ statusMark status ++ " " ++ name
  match duration.filter fun _ => debug with
  | some d => line ++ " (" ++ durationText d ++ ")"
  | none => line

/-- The lines for an event. -/
def eventLines (debug : Bool) : Event → String
  | .runStart flow resume =>
    (if resume then "Resuming" else "Running") ++ " flow '" ++ flow ++ "'"
  | .stepSummary name status duration => stepLine debug name status duration
  | .runPaused runId pause => "⏸ Run " ++ runId ++ " paused: " ++ pause.compact
  | .runFailed _ step error => "Error in step '" ++ step ++ "': " ++ error
  | .runComplete _ status duration steps =>
    "\nRun " ++ status.name ++ " (" ++ toString steps ++ " steps in " ++
      durationText duration ++ ")"
  | .error message => "Error: " ++ message
  | .info message => message

/-! ## Reports -/

/-- A report as a document. -/
def Report.toJson : Report → Json
  | event e => e.toJson
  | result status output => .obj [("status", .str status.name), ("output", output.getD .null)]

/-- The output of a result as a line, if there is one. -/
def outputOnly (output : Option Json) : Printed :=
  match output with
  | some j => .outputLine j.compact
  | none => .empty

/-- What is printed for a report. -/
def Style.print : Style → Report → Printed
  | .console debug, .event e => .errorLine (eventLines debug e)
  | .json pretty, r => .outputLine (if pretty then r.toJson.pretty else r.toJson.compact)
  | .quiet, .event _ => .empty
  | _, .result _ output => outputOnly output

end FlowEngine.Cli
