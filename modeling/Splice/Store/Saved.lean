import Splice.Json.Reader
import Splice.Store.Basic

/-! # Stores between runs

A store is kept as JSON: its jobs with all their columns, and its videos, in the order in which they
were added.
-/

namespace Splice.Store

def cellValue : Cell → Value
  | some s => .text s
  | none => .null

def cellOf : Value → Cell
  | .text s => some s
  | _ => none

def jobValue (r : JobRow) : Value :=
  .mapping (JobColumn.all.map fun c => (.text c.name, cellValue (r c)))

def videoValue (v : Video) : Value :=
  .list ([v.id, v.user, v.url, v.filename, v.kind, v.storagePath, v.created].map .text)

def jobOf? : Value → Option JobRow
  | .mapping entries => some fun c => cellOf ((Value.lookup? c.name entries).getD .null)
  | _ => none

def videoOf? : Value → Option Video
  | .list [.text id, .text user, .text url, .text filename, .text kind, .text path, .text created] =>
    some ⟨id, user, url, filename, kind, path, created⟩
  | _ => none

def saved (s : Store) : Except Json.WriteError String :=
  Json.write (.mapping [(.text "jobs", .list (s.jobs.map jobValue)),
    (.text "videos", .list (s.videos.map videoValue))])

def ofSaved? (text : String) : Option Store :=
  match Json.read? text with
  | some (.mapping [(.text "jobs", .list jobs), (.text "videos", .list videos)]) => do
    return { jobs := ← jobs.mapM jobOf?, videos := ← videos.mapM videoOf? }
  | _ => none

end Splice.Store
