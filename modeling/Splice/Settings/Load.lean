import Splice.Machine

/-! # Settings of a run

The settings that a run starts with: a file of them may be named, and it must exist then.
-/

namespace Splice

/-- What a run finds where it is started. -/
structure Surroundings where
  installed : Installed
  environment : String → Option String

namespace Surroundings

def fileContent (p : Path) : Action String := do
  let isThere ← Machine.askTree p.text fun t here => t.isThere here p
  if !isThere then throw (.settings (.missing p))
  Machine.askTree p.text fun t here => t.read here p

def settings (s : Surroundings) (file : Option Path) : Action Settings := do
  let given ← match file with
    | none => pure none
    | some p => do
      let content ← fileContent p
      pure (some (p, content))
  let m ← get
  Machine.lift .settings (Settings.load s.installed m.here given s.environment)

end Surroundings
end Splice
