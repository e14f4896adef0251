import Splice.Proofs.Diagnostic.Selection
import Splice.Proofs.Invocation.Outcome
import Splice.Proofs.Text.Order
import Splice.Proofs.Text.Words

/-! # The filters of engines

The filters of an engine are the names in the rows of its listing, whatever the spacing, the descriptions
and the lines around them. In the course of calls, the first listing of an engine that is printed answers
for it from then on; one that fails leaves nothing behind.
-/

namespace Splice

open Splice.Action Splice.Text Machine

theorem nodup_eraseDups (names : List String) : names.eraseDups.Nodup := by
  cases names with
  | nil => exact List.nodup_nil
  | cons name rest =>
      have shorter : (rest.filter fun other => !other == name).length < rest.length + 1 :=
        Nat.lt_succ_of_le (List.length_filter_le _ rest)
      rw [List.eraseDups_cons, List.nodup_cons, List.mem_eraseDups, List.mem_filter]
      exact ⟨by simp, nodup_eraseDups _⟩
termination_by names.length

namespace Engine

/-! ## Lines of a listing -/

/-- A word tells what a filter takes and gives. -/
def HasArrow (word : List Char) : Prop := ['-', '>'] <:+: word

/-- A row of a listing: flags, a name and a word with an arrow, then any description. -/
structure Row where
  lead : List Char
  flags : List Char
  gap : List Char
  name : List Char
  space : List Char
  pads : List Char
  description : List Char
  blank : Blank lead ∧ Blank gap ∧ Blank space
  apart : gap ≠ [] ∧ space ≠ []
  solid : IsWord flags ∧ IsWord name ∧ IsWord pads
  arrow : HasArrow pads
  setOff : SetOff description

def Row.text (r : Row) : List Char :=
  r.lead ++ (r.flags ++ (r.gap ++ (r.name ++ (r.space ++ (r.pads ++ r.description)))))

/-- A line whose third word, if it has one, has no arrow. -/
structure Header where
  text : List Char
  plain : ∀ words third, Worded text words → words[2]? = some third → ¬ HasArrow third

inductive Line where
  | header (h : Header)
  | row (r : Row)

def Line.text : Line → List Char
  | .header h => h.text
  | .row r => r.text

/-- A listing has these lines, with any line ends. -/
def Lists (text : String) (lines : List Line) : Prop := Lined text.toList (lines.map Line.text)

/-- Names are those of the rows of a listing, each once. -/
structure Tells (text : String) (names : List String) : Prop where
  rows : ∀ lines, Lists text lines → ∀ name, name ∈ names ↔ ∃ r, .row r ∈ lines ∧ String.ofList r.name = name
  once : names.Nodup

section Listing

variable {text : String} {lines : List Line} {cs : List Char}

theorem setOff_append {gap : List Char} (blank : Blank gap) (filled : gap ≠ []) (rest : List Char) :
    SetOff (gap ++ rest) := by
  obtain ⟨c, gap, rfl⟩ := List.exists_cons_of_ne_nil filled
  intro d mem
  obtain rfl := Option.some.inj mem
  exact blank c List.mem_cons_self

/-- Blanks that set off a word are there. -/
theorem ne_nil_of_setOff {gap word rest : List Char} (solid : IsWord word)
    (off : SetOff (gap ++ (word ++ rest))) : gap ≠ [] := by
  rintro rfl
  obtain ⟨c, word, rfl⟩ := List.exists_cons_of_ne_nil solid.filled
  have inside := solid.solid c List.mem_cons_self
  rw [off c rfl] at inside
  cases inside

theorem Row.worded (r : Row) : ∃ more, Worded r.text (r.flags :: r.name :: r.pads :: more) := by
  obtain ⟨more, rest⟩ := exists_worded r.description
  obtain ⟨lead, gap, space⟩ := r.blank
  obtain ⟨flags, name, pads⟩ := r.solid
  exact ⟨more, .word lead flags (setOff_append gap r.apart.1 _)
    (.word gap name (setOff_append space r.apart.2 _) (.word space pads r.setOff rest))⟩

theorem exists_row {flags name pads : List Char} {more : List (List Char)}
    (h : Worded cs (flags :: name :: pads :: more)) (arrow : HasArrow pads) : ∃ r : Row, r.text = cs := by
  cases h with
  | word lead solidFlags afterFlags h =>
    cases h with
    | word gap solidName afterName h =>
      cases h with
      | @word space _ description _ blank solidPads afterPads _ =>
          exact ⟨{
            blank := ⟨lead, gap, blank⟩
            apart := ⟨ne_nil_of_setOff solidName afterFlags, ne_nil_of_setOff solidPads afterName⟩
            solid := ⟨solidFlags, solidName, solidPads⟩
            arrow, setOff := afterPads, .. }, rfl⟩

theorem exists_line (cs : List Char) : ∃ line : Line, line.text = cs := by
  by_cases row : ∃ r : Row, r.text = cs
  · obtain ⟨r, rfl⟩ := row
    exact ⟨.row r, rfl⟩
  · refine ⟨.header ⟨cs, fun words third h place arrow => row ?_⟩, rfl⟩
    match words, place, h with
    | _ :: _ :: _ :: _, rfl, h => exact exists_row h arrow

/-- Every text is a listing. -/
theorem exists_lists (text : String) : ∃ lines, Lists text lines := by
  choose line same using exists_line
  refine ⟨(Text.lines text).map fun s => line s.toList, ?_⟩
  have whole : ((Text.lines text).map fun s => line s.toList).map Line.text =
      (Text.lines text).map String.toList := by
    rw [List.map_map]
    exact List.map_congr_left fun s _ => same s.toList
  rw [Lists, whole]
  exact lined_lines text

theorem filterOfLine?_row (r : Row) : filterOfLine? (String.ofList r.text) = some (String.ofList r.name) := by
  obtain ⟨more, worded⟩ := r.worded
  have arrow : occursIn ['-', '>'] r.pads = true := occursIn_iff.mpr r.arrow
  simp [filterOfLine?, words_ofList worded, arrow]

theorem filterOfLine?_header (h : Header) : filterOfLine? (String.ofList h.text) = none := by
  obtain ⟨words, worded⟩ := exists_worded h.text
  rw [filterOfLine?, words_ofList worded]
  match words, worded with
  | [], _ => rfl
  | [_], _ => rfl
  | [_, _], _ => rfl
  | _ :: _ :: third :: _, worded =>
      have plain : occursIn ['-', '>'] third = false :=
        Bool.eq_false_iff.mpr fun found => h.plain _ third worded rfl (occursIn_iff.mp found)
      simp [plain]

theorem tells_filterNames (text : String) : Tells text (filterNames text) := by
  refine ⟨fun lines h name => ?_, nodup_eraseDups _⟩
  have raw : Text.lines text = lines.map fun line => String.ofList line.text := by
    refine lines_eq_of_lined ?_
    rw [List.map_map]
    simpa [Lists, Function.comp_def] using h
  rw [filterNames, List.mem_eraseDups, raw, List.filterMap_map, List.mem_filterMap]
  constructor
  · rintro ⟨line, mem, read⟩
    cases line with
    | header h => cases (filterOfLine?_header h).symm.trans read
    | row r => exact ⟨r, mem, Option.some.inj ((filterOfLine?_row r).symm.trans read)⟩
  · rintro ⟨r, mem, rfl⟩
    exact ⟨.row r, mem, filterOfLine?_row r⟩

/-- Only the rows count, in whatever spacing. -/
example : filterNames "Filters:\n  T.. = Timeline support\r\n T.C drawtext\tV->V  Draw a->b\n ..C  zoompan V->V" =
    ["drawtext", "zoompan"] := by decide

theorem Tells.mem_iff {names others : List String} (h : Tells text names) (h' : Tells text others)
    (name : String) : name ∈ names ↔ name ∈ others := by
  obtain ⟨lines, lists⟩ := exists_lists text
  exact (h.rows lines lists name).trans (h'.rows lines lists name).symm

end Listing

/-- Names are those that are required and not available, each once, in the order of their code points. -/
structure Misses (required available missing : List String) : Prop where
  mem : ∀ name, name ∈ missing ↔ name ∈ required ∧ name ∉ available
  once : missing.Nodup
  inOrder : missing.Pairwise fun a b => isOrdered a b = true

theorem misses_missing (required available : List String) :
    Misses required available (missing required available) where
  mem name := by
    rw [missing, sorted, List.mem_mergeSort, List.mem_filter, List.mem_eraseDups]
    simp
  once := (List.mergeSort_perm _ _).nodup_iff.mpr ((nodup_eraseDups required).filter _)
  inOrder := List.pairwise_mergeSort isOrdered_trans isOrdered_total _

theorem Misses.ne_nil_iff {required available missing : List String}
    (h : Misses required available missing) : missing ≠ [] ↔ ∃ name ∈ required, name ∉ available := by
  constructor
  · intro some
    obtain ⟨name, mem⟩ := List.exists_mem_of_ne_nil missing some
    exact ⟨name, (h.mem name).mp mem⟩
  · rintro ⟨name, lacks⟩
    exact List.ne_nil_of_mem ((h.mem name).mpr lacks)

/-- The text of a listing that succeeds. -/
def Listing.text? : Listing → Option String
  | .printed text => some text
  | _ => none

end Engine

/-! ## What is known -/

theorem Machine.toOption_listed (m : Machine) (engine : Option String) :
    (m.listed engine).toOption = m.listing.text?.map Engine.filterNames := by
  unfold listed
  cases m.listing <;> rfl

theorem Machine.toOption_filters (m : Machine) (engine : Option String) : (m.filters engine).toOption =
    (m.knownFilters.lookup engine).or (m.listing.text?.map Engine.filterNames) := by
  unfold Machine.filters
  cases m.knownFilters.lookup engine with
  | some names => rfl
  | none => exact m.toOption_listed engine

/-- A listing that fails tells nothing and is not kept. -/
theorem Machine.filters_unlisted {m : Machine} {engine : Option String}
    (new : m.knownFilters.lookup engine = none) (silent : m.listing.text? = none) :
    (∃ reason, m.filters engine = .error (.start reason)) ∧ m.known engine = m.knownFilters := by
  unfold Machine.filters listed known
  rw [new]
  cases listing : m.listing with
  | refused | overdue => exact ⟨⟨_, rfl⟩, rfl⟩
  | printed text => simp [listing, Engine.Listing.text?] at silent

/-- Asking for the filters of an engine tells nothing of another one. -/
theorem Machine.lookup_known (m : Machine) (engine other : Option String) :
    (m.known engine).lookup other =
      if other = engine then (m.filters engine).toOption else m.knownFilters.lookup other := by
  by_cases same : other = engine
  · subst same
    rw [if_pos rfl, m.toOption_filters]
    unfold known
    cases found : m.knownFilters.lookup other with
    | some names => exact found
    | none =>
        cases m.listing with
        | printed text => simp [Engine.Listing.text?]
        | refused | overdue => exact found
  · rw [if_neg same]
    unfold known
    split
    · rfl
    · split
      · rw [List.lookup_cons, beq_false_of_ne same]
      · rfl

namespace Invocation

open Engine

/-- A call that asks whether an engine has filters, and what the engine would list by then. -/
structure Call where
  engine : String
  required : List String
  present : Listing

namespace Call

def check (c : Call) : Action Unit := checkFilters (some c.engine) c.required

/-- The machine that a call finds where `m` was left. -/
def found (c : Call) (m : Machine) : Machine := { m with listing := c.present }

/-- The machine that a call leaves. -/
def left (c : Call) (m : Machine) : Machine := after c.check (c.found m)

def text? (c : Call) (engine : String) : Option String :=
  if c.engine = engine then c.present.text? else none

end Call

/-- The machine that calls leave, one after the other. -/
def leftBy (calls : List Call) (m : Machine) : Machine := calls.foldl (fun m c => c.left m) m

/-- The first listing of an engine that succeeds in the course of calls. -/
def firstText? (engine : String) (calls : List Call) : Option String := calls.findSome? (·.text? engine)

/-- Of each engine the first listing that succeeded is known, and nothing else. -/
def Remembers (past : List Call) (m : Machine) : Prop :=
  ∀ engine, m.knownFilters.lookup (some engine) = (firstText? engine past).map filterNames

section History

variable {past : List Call} {c : Call} {m : Machine} {engine text : String}

theorem firstText?_append (engine : String) (past : List Call) (c : Call) :
    firstText? engine (past ++ [c]) = (firstText? engine past).or (c.text? engine) := by
  rw [firstText?, List.findSome?_append, List.findSome?_singleton]
  rfl

theorem firstText?_eq_none : firstText? c.engine (past ++ [c]) = none ↔
    firstText? c.engine past = none ∧ ∀ text, c.present ≠ .printed text := by
  rw [firstText?_append, Option.or_eq_none_iff, Call.text?, if_pos rfl]
  cases c.present <;> simp [Listing.text?]

/-- What a call finds of its engine is the first listing that succeeded, its own one included. -/
theorem Remembers.toOption_filters (h : Remembers past m) (c : Call) :
    ((c.found m).filters (some c.engine)).toOption =
      (firstText? c.engine (past ++ [c])).map filterNames := by
  rw [Machine.toOption_filters, firstText?_append, Option.map_or, Call.text?, if_pos rfl, ← h c.engine]
  rfl

theorem left_eq (c : Call) (m : Machine) : ∃ processes, c.left m =
    { c.found m with processes, knownFilters := (c.found m).known (some c.engine) } :=
  ⟨_, (Gives.unique (gives_after c.check (c.found m)) (gives_checkFilters _ _ _)).2⟩

theorem Remembers.left (h : Remembers past m) (c : Call) : Remembers (past ++ [c]) (c.left m) := by
  intro engine
  obtain ⟨processes, same⟩ := left_eq c m
  rw [same, Machine.lookup_known]
  split
  · rename_i own
    obtain rfl := Option.some.inj own
    exact h.toOption_filters c
  · rename_i other
    have other : c.engine ≠ engine := fun own => other (congrArg some own.symm)
    rw [firstText?_append, Call.text?, if_neg other, Option.or_none]
    exact h engine

theorem Remembers.leftBy (h : Remembers past m) (calls : List Call) :
    Remembers (past ++ calls) (leftBy calls m) := by
  induction calls generalizing past m with
  | nil =>
      rw [List.append_nil]
      exact h
  | cons c calls ih =>
      rw [List.append_cons]
      exact ih (h.left c)

theorem Remembers.fresh (m : Machine) : Remembers [] { m with knownFilters := [] } := fun _ => rfl

/-- What becomes of a call after others, where `m` was left by them: it is answered from the first listing
of its engine that succeeded. -/
structure Answered (past : List Call) (c : Call) (m : Machine) (o : Except Failure Unit) (n : Machine) :
    Prop where
  unlisted : firstText? c.engine past = none → (∀ text, c.present ≠ .printed text) →
    (∃ reason, o = .error (.engine (.start reason))) ∧ n.knownFilters = m.knownFilters
  listed : ∀ text, firstText? c.engine (past ++ [c]) = some text → ∃ names missing,
    Tells text names ∧ Misses c.required names missing ∧ (missing = [] → o = .ok ()) ∧
    (missing ≠ [] → ∃ f, o = .error f ∧ f = .engine (.filters (some c.engine) missing) ∧
      f.message = "ffmpeg at " ++ c.engine ++ " has no " ++ ", ".intercalate missing ++
        " filter; text overlays need an ffmpeg built with libfreetype (set HOOKCUT_FFMPEG to one)")
  fails : (∃ f, o = .error f) ↔
    (firstText? c.engine past = none ∧ ∀ text, c.present ≠ .printed text) ∨
    ∃ text names, firstText? c.engine (past ++ [c]) = some text ∧ Tells text names ∧
      ∃ name ∈ c.required, name ∉ names
  kind : ∀ f, o = .error f → f.kind = "EngineStartError"
  others : ∀ engine, engine ≠ c.engine →
    n.knownFilters.lookup (some engine) = m.knownFilters.lookup (some engine)
  remembers : Remembers (past ++ [c]) n

/-- What a call tells of the filters of its engine. -/
def Call.verdict (c : Call) (names : List String) : Except Failure Unit :=
  let missing := Engine.missing c.required names
  if missing = [] then .ok () else .error (.engine (.filters (some c.engine) missing))

section Verdict

variable {names : List String}

theorem Call.verdict_eq_ok (all : Engine.missing c.required names = []) : c.verdict names = .ok () :=
  if_pos all

theorem Call.verdict_eq_error (lacks : Engine.missing c.required names ≠ []) : c.verdict names =
    .error (.engine (.filters (some c.engine) (Engine.missing c.required names))) :=
  if_neg lacks

theorem Call.verdict_fails_iff :
    (∃ f, c.verdict names = .error f) ↔ ∃ name ∈ c.required, name ∉ names := by
  rw [← (misses_missing c.required names).ne_nil_iff]
  by_cases all : Engine.missing c.required names = []
  · simp [verdict_eq_ok all, all]
  · simp [verdict_eq_error all, all]

end Verdict

theorem gives_check (c : Call) (m : Machine) : Gives c.check (c.found m)
    ((((c.found m).filters (some c.engine)).mapError .engine).bind c.verdict) (c.left m) := by
  have given := gives_checkFilters (some c.engine) c.required (c.found m)
  rw [← (Gives.unique (gives_after c.check (c.found m)) given).2] at given
  cases filters : (c.found m).filters (some c.engine) with
  | error fault =>
      rw [filters] at given
      exact given
  | ok names =>
      rw [filters] at given
      simp only [Except.bind, Except.mapError, Call.verdict, List.isEmpty_iff] at given ⊢
      by_cases all : Engine.missing c.required names = []
      · rw [if_pos all] at given ⊢
        exact given
      · rw [if_neg all] at given ⊢
        exact given

theorem lookup_left {engine : String} (c : Call) (m : Machine) (other : engine ≠ c.engine) :
    (c.left m).knownFilters.lookup (some engine) = m.knownFilters.lookup (some engine) := by
  obtain ⟨processes, same⟩ := left_eq c m
  rw [same, Machine.lookup_known, if_neg fun own => other (Option.some.inj own)]
  rfl

theorem answered_unlisted (h : Remembers past m) (first : firstText? c.engine (past ++ [c]) = none) :
    ∃ o, Gives c.check (c.found m) o (c.left m) ∧ Answered past c m o (c.left m) := by
  have given := gives_check c m
  obtain ⟨before, silent⟩ := firstText?_eq_none.mp first
  have new : (c.found m).knownFilters.lookup (some c.engine) = none := by
    rw [Call.found, h c.engine, before]
    rfl
  have quiet : (c.found m).listing.text? = none := by
    cases listing : c.present with
    | refused | overdue => simp [Call.found, listing, Listing.text?]
    | printed text => exact absurd listing (silent text)
  obtain ⟨⟨reason, filters⟩, kept⟩ := Machine.filters_unlisted new quiet
  rw [filters] at given
  refine ⟨_, given, ?unlisted, ?listed, ?fails, ?kind, fun _ => lookup_left c m, h.left c⟩
  case unlisted =>
    obtain ⟨processes, same⟩ := left_eq c m
    exact fun _ _ => ⟨⟨reason, rfl⟩, same ▸ kept⟩
  case listed =>
    intro text told
    cases first.symm.trans told
  case fails => exact ⟨fun _ => .inl ⟨before, silent⟩, fun _ => ⟨_, rfl⟩⟩
  case kind =>
    rintro f ⟨⟩
    rfl

theorem answered_listed (h : Remembers past m) (first : firstText? c.engine (past ++ [c]) = some text) :
    ∃ o, Gives c.check (c.found m) o (c.left m) ∧ Answered past c m o (c.left m) := by
  have given := gives_check c m
  have filters : (c.found m).filters (some c.engine) = .ok (filterNames text) := by
    refine Outcome.eq_ok_of_toOption ?_
    rw [h.toOption_filters c, first]
    rfl
  have tells := tells_filterNames text
  have only {text' : String} (told : firstText? c.engine (past ++ [c]) = some text') : text' = text :=
    Option.some.inj (told.symm.trans first)
  have unseen (none : firstText? c.engine past = .none ∧ ∀ text, c.present ≠ .printed text) : False := by
    cases (firstText?_eq_none.mpr none).symm.trans first
  rw [filters] at given
  refine ⟨c.verdict (filterNames text), given, ?unlisted, ?listed, ?fails, ?kind,
    fun _ => lookup_left c m, h.left c⟩
  case unlisted => exact fun before silent => (unseen ⟨before, silent⟩).elim
  case listed =>
    intro text' told
    obtain rfl := only told
    exact ⟨_, _, tells, misses_missing c.required _, Call.verdict_eq_ok,
      fun lacks => ⟨_, Call.verdict_eq_error lacks, rfl, rfl⟩⟩
  case fails =>
    rw [Call.verdict_fails_iff]
    constructor
    · exact fun lacks => .inr ⟨text, _, first, tells, lacks⟩
    · rintro (none | ⟨text', names, told, tells', name, required, unlisted⟩)
      · exact (unseen none).elim
      · obtain rfl := only told
        exact ⟨name, required, fun mem => unlisted ((tells.mem_iff tells' name).mp mem)⟩
  case kind =>
    intro f failed
    by_cases all : Engine.missing c.required (filterNames text) = []
    · cases (Call.verdict_eq_ok all).symm.trans failed
    · obtain rfl := Except.error.inj ((Call.verdict_eq_error all).symm.trans failed)
      rfl

theorem Remembers.answered (h : Remembers past m) (c : Call) :
    ∃ o, Gives c.check (c.found m) o (c.left m) ∧ Answered past c m o (c.left m) := by
  cases first : firstText? c.engine (past ++ [c]) with
  | none => exact answered_unlisted h first
  | some text => exact answered_listed h first

/-- An engine that cannot be asked at first, then lists a filter of pictures; another one lists texts. -/
def earlier : List Call :=
  [⟨"old", [], .refused "busy"⟩, ⟨"old", ["scale"], .printed " ..C scale V->V Resize"⟩,
    ⟨"new", ["drawtext"], .printed " T.C drawtext V->V Draw text"⟩]

/-- The first engine would list texts by now. -/
def later : Call := ⟨"old", ["drawtext"], .printed " T.C drawtext V->V Draw text"⟩

end History

end Invocation
end Splice
