import Splice.Proofs.EditConfig.Checked
import Splice.Proofs.EditConfig.Kept
import Splice.Proofs.Jobs
import Splice.Proofs.Yaml.Blank
import Splice.Proofs.Yaml.Stored

/-! # Stored configurations

A job's configuration is stored as JSON and read as YAML. What both can express is read as it was given.
They differ in some points: a date has no form in JSON, and a character of two units is two characters in
YAML; a configuration with one of these is accepted and not stored, or stored and not read as it was.
-/

namespace Splice

open Outcome Splice.Action

namespace EditConfig

variable {entries : List (Value × Value)} {c : EditConfig}

/-- What JSON writes of a configuration is read as the configuration. -/
theorem ofText_write (h : Storable entries)
    (fits : Yaml.height (.mapping entries) ≤ Yaml.NodeReader.levelLimit)
    (accepted : read (.mapping entries) = .ok c) :
    ∃ t, Json.write (.mapping entries) = .ok t ∧ Text.unencodable? t = none ∧ ofText t = .ok c := by
  obtain ⟨t, written, encodable, found⟩ := Yaml.read_write (v := .mapping entries) id h.readable fits
  refine ⟨t, written, encodable, ?_⟩
  have filled : Text.isBlankText t = false := by
    refine eq_false_of_ne_true fun blank => ?_
    obtain stops | null | ⟨w, -, text⟩ := Yaml.read_blank blank
    · cases found.symm.trans stops
    · cases found.symm.trans null
    · cases found.symm.trans text
  have config : ofEntries entries = .ok c := ofFault_eq_ok.mp accepted
  rw [ofText, filled, if_neg Bool.false_ne_true, found]
  exact ofFault_eq_ok.mpr (carries_ofEntries h c config)

end EditConfig

namespace Store

theorem cell_stored (place : Nat) {t : Option String}
    (h : ∀ w, t = some w → Text.unencodable? w = none) :
    cell place (Pipeline.storedValue t) = .ok t := by
  cases t with
  | none => rfl
  | some w => exact cell_text.mpr ⟨h w rfl, rfl⟩

/-- An order of texts that have bytes is added under a new key. -/
theorem enqueue_texts {s : Store} {id user hookUrl demoUrl : String}
    {hookText editConfig : Option String} (now : String)
    (texts : ∀ t ∈ user :: hookUrl :: demoUrl :: (hookText.toList ++ editConfig.toList),
      Text.unencodable? t = none)
    (new : s.hasJob (some id) = false) :
    s.enqueue id now ⟨.text user, .text hookUrl, .text demoUrl, Pipeline.storedValue hookText,
      Pipeline.storedValue editConfig⟩ = .ok { s with
        jobs :=
          s.jobs ++ [newRow id now (some user) (some hookUrl) (some demoUrl) hookText editConfig] } := by
  have first : cell 2 (.text user) = .ok (some user) := cell_text.mpr ⟨texts _ (by simp), rfl⟩
  have second : cell 3 (.text hookUrl) = .ok (some hookUrl) := cell_text.mpr ⟨texts _ (by simp), rfl⟩
  have third : cell 4 (.text demoUrl) = .ok (some demoUrl) := cell_text.mpr ⟨texts _ (by simp), rfl⟩
  have fourth : cell 5 (Pipeline.storedValue hookText) = .ok hookText :=
    cell_stored 5 fun w same => texts w (by simp [same])
  have fifth : cell 6 (Pipeline.storedValue editConfig) = .ok editConfig :=
    cell_stored 6 fun w same => texts w (by simp [same])
  have checked :
    JobRow.check (newRow id now (some user) (some hookUrl) (some demoUrl) hookText editConfig) =
      .ok () := rfl
  simp only [enqueue, first, second, third, fourth, fifth, ok_bind, checked, new]
  rfl

end Store

namespace EditConfig

/-- Surroundings in which jobs can be stored. -/
def counter : Machine where
  stores := [(["jobs.db"], {})]

def orderOf (entries : List (Value × Value)) : Store.Order :=
  ⟨.text "u", .text "a.mp4", .text "b.mp4", .null, .mapping entries⟩

/-- A configuration with a number that JSON writes without a point, and with parts that nothing reads. -/
def spelled : List (Value × Value) :=
  [(.text "hookTrim",
      .mapping [(.text "start-time", .float (.ofInt 10000000000000000)), (.text "end", .text "3.5")]),
    (.text "hook_effect",
      .mapping [(.text "type", .text "zoom-in"), (.text "since", .list [.null, .bool true, .int 7])])]

theorem spelled_storable : Storable spelled := by
  have key : ∀ s ∈ ["hookTrim", "start-time", "end", "hook_effect", "type", "since", "3.5", "zoom-in"],
      Text.IsBasic s ∧ (Json.quote s).length ≤ 1024 := by
    intro s mem
    have plain : s.toList.all (fun c => decide (c.toNat < 0xD800)) = true ∧
      (Json.quote s).length ≤ 1024 := by
      revert s
      decide +kernel
    exact ⟨Text.isBasic_plain (List.all_iff_forall_prop.mp plain.1), plain.2⟩
  have text {s : String} (h : Text.IsBasic s ∧ (Json.quote s).length ≤ 1024) :
      ∃ w, Json.keyText (.text s) = .ok w ∧ Text.IsBasic w ∧ (Json.quote w).length ≤ 1024 := ⟨s, rfl, h⟩
  have last : ∀ k : Value, ∀ e ∈ ([] : List (Value × Value)), Yaml.keyName e.1 ≠ Yaml.keyName k :=
    fun _ => nofun
  have before {k d : String} (v : Value) (other : d ≠ k) :
      ∀ e ∈ [(Value.text d, v)], Yaml.keyName e.1 ≠ Yaml.keyName (.text k) := by
    rintro e mem same
    obtain rfl := List.mem_singleton.mp mem
    exact other same
  constructor
  · refine ⟨text (key _ (by decide)), before _ (by decide), ?_, text (key _ (by decide)), last _,
      ?_, trivial⟩
    · exact ⟨text (key _ (by decide)), before _ (by decide), trivial, text (key _ (by decide)), last _,
        (key _ (by decide)).1, trivial⟩
    · have seven : Value.isWritableInt 7 = true := by decide +kernel
      exact ⟨text (key _ (by decide)), before _ (by decide), (key _ (by decide)).1,
        text (key _ (by decide)), last _,
        ⟨trivial, trivial, seven, trivial⟩, trivial⟩
  · have sections : canonicalKey "hookTrim" ∉ nameKeys ∧ canonicalKey "hook_effect" ∉ nameKeys := by
      decide +kernel
    intro e mem name same named
    simp only [spelled, List.mem_cons, List.not_mem_nil, or_false] at mem
    obtain rfl | rfl := mem
    · cases same
      exact absurd named sections.1
    · cases same
      exact absurd named sections.2
  · have start : canonicalKey "start-time" ∉ nameKeys := by decide +kernel
    intro e mem inner same d mem' name same' named
    simp only [spelled, List.mem_cons, List.not_mem_nil, or_false] at mem
    obtain rfl | rfl := mem
    · cases same
      simp only [List.mem_cons, List.not_mem_nil, or_false] at mem'
      obtain rfl | rfl := mem'
      · cases same'
        exact absurd named start
      · exact .inl rfl
    · cases same
      simp only [List.mem_cons, List.not_mem_nil, or_false] at mem'
      obtain rfl | rfl := mem' <;> exact .inl rfl

/-- A date in a part that nothing reads. -/
def dated : List (Value × Value) :=
  [(.text "hook_effect",
    .mapping [(.text "type", .text "zoom-in"), (.text "since", .date ⟨2024, 1, 1⟩)])]

/-- A numeral of a digit that takes two units. -/
def wide : List (Value × Value) :=
  [(.text "hook_trim", .mapping [(.text "start", .text "𝟏"), (.text "end", .int 3)])]

end EditConfig
end Splice
