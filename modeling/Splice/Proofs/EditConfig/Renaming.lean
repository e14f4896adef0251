import Splice.Proofs.EditConfig.Kept
import Splice.Proofs.EditConfig.Spellings
import Splice.Proofs.Text.Order

/-! # Configurations with their keys spelled in another way

A key only counts by its name, and an entry by its key: neither the spellings of the keys nor the order of
the entries makes a difference to what a configuration is read as, nor to the fault that is reported.
-/

namespace Splice.EditConfig

open Outcome

/-! ## Keys with one name -/

/-- Whether a text is a spelling of a name: of the name itself or of a second name of it, in any style
and with any blanks around it. -/
def Spells (key name : String) : Prop :=
  ∃ (n : Name) (style : Style) (before after : List Char),
    key = String.ofList (before ++ n.spelled style ++ after) ∧
      (∀ c ∈ before, Text.isBlank c = true) ∧ (∀ c ∈ after, Text.isBlank c = true) ∧
        (n.text = name ∨ (n.text, name) ∈ aliases)

/-- The name of a key is no second name. -/
theorem lookup_canonicalKey (key : String) : aliases.lookup (canonicalKey key) = none := by
  have closed : ∀ e ∈ aliases, aliases.lookup e.2 = none := by decide
  cases found : aliases.lookup (snake key) with
  | none => rw [canonicalKey, found, Option.getD_none, found]
  | some name =>
      obtain ⟨before, after, split, -⟩ := List.lookup_eq_some_iff.mp found
      rw [canonicalKey, found, Option.getD_some]
      exact closed (snake key, name) (split ▸ List.mem_append_right _ List.mem_cons_self)

theorem canonicalKey_of_spells {key other : String} (h : Spells other (canonicalKey key)) :
    canonicalKey other = canonicalKey key := by
  obtain ⟨n, style, before, after, rfl, hb, ha, named⟩ := h
  rw [canonicalKey, n.snake_spelled style hb ha]
  cases named with
  | inl same =>
      rw [same, lookup_canonicalKey, Option.getD_none]
  | inr second =>
      have listed : ∀ e ∈ aliases, aliases.lookup e.1 = some e.2 := by decide
      rw [listed _ second, Option.getD_some]

/-! ## Entries in another order -/

/-- Whether entries are the others with keys that are kept or spelled in another way, in any order.
Values under a name are related by `same`. -/
def Respelled (same : String → Value → Value → Prop) (es fs : List (Value × Value)) : Prop :=
  ∃ gs, gs.Perm fs ∧ List.Forall₂ (fun e g => ∃ key other, e.1 = .text key ∧ g.1 = .text other ∧
    (other = key ∨ Spells other (canonicalKey key)) ∧ same (canonicalKey key) e.2 g.2) es gs

/-- Whether no two names of a section have the same code points. -/
def Section.IsDistinct (s : Section) : Prop := (s.map fun e => Text.codes e.1.toList).Nodup

instance (s : Section) : Decidable s.IsDistinct := inferInstanceAs (Decidable (List.Nodup _))

/-- Whether the keys of a mapping are texts, and no two of them have one name. -/
def HasDistinctNames (es : List (Value × Value)) : Prop :=
  ∃ s, canonicalEntries es = .ok s ∧ s.IsDistinct

/-- Whether sections have the same names, with values related by `same`, in any order. -/
def Section.Matches (same : String → Value → Value → Prop) (s t : Section) : Prop :=
  ∃ u, u.Perm t ∧ List.Forall₂ (fun d e => d.1 = e.1 ∧ same d.1 d.2 e.2) s u

variable {same : String → Value → Value → Prop} {es fs gs : List (Value × Value)} {s t u : Section}
  {name : String}

/-- Whether an entry is one of a section with a value. -/
def IsNamed (e : Value × Value) (d : String × Value) : Prop :=
  ∃ key, e.1 = .text key ∧ d = (canonicalKey key, e.2)

theorem canonicalEntries_eq_ok : canonicalEntries es = .ok s ↔ List.Forall₂ IsNamed es s := by
  constructor
  · intro read
    induction es generalizing s with
    | nil =>
        cases read
        exact .nil
    | cons e es ih =>
        obtain ⟨k, v⟩ := e
        cases k with
        | text key =>
            obtain ⟨rest, found, rfl⟩ := map_eq_ok.mp read
            exact .cons ⟨key, rfl, rfl⟩ (ih found)
        | _ => cases read
  · intro named
    induction named with
    | nil => rfl
    | @cons e d es s head _ ih =>
        obtain ⟨k, v⟩ := e
        obtain ⟨key, rfl, rfl⟩ := head
        rw [canonicalEntries, ih]
        rfl

/-- Entries that are spelled in another way make a section with the same names. -/
theorem Respelled.section (h : Respelled same es fs) (read : canonicalEntries es = .ok s) :
    ∃ t, canonicalEntries fs = .ok t ∧ s.Matches same t := by
  obtain ⟨gs, perm, spelled⟩ := h
  have named := canonicalEntries_eq_ok.mp read
  have kept : ∃ u, List.Forall₂ IsNamed gs u ∧
      List.Forall₂ (fun d e => d.1 = e.1 ∧ same d.1 d.2 e.2) s u := by
    clear perm read
    induction spelled generalizing s with
    | nil =>
        cases named
        exact ⟨[], .nil, .nil⟩
    | @cons e g es gs head _ ih =>
        obtain ⟨key, other, keyed, keyed', spelled, related⟩ := head
        obtain _ | ⟨⟨key', text, rfl⟩, named⟩ := named
        obtain rfl : key = key' := Value.text.inj (keyed.symm.trans text)
        obtain ⟨u, named', matched⟩ := ih named
        have name : canonicalKey key = canonicalKey other := by
          cases spelled with
          | inl kept => rw [kept]
          | inr spelled => exact (canonicalKey_of_spells spelled).symm
        refine ⟨(canonicalKey other, g.2) :: u, .cons ⟨other, keyed', rfl⟩ named', .cons ?_ matched⟩
        dsimp only
        exact ⟨name, related⟩
  obtain ⟨u, named', matched⟩ := kept
  obtain ⟨t, named'', perm'⟩ := List.perm_comp_forall₂ perm.symm named'
  exact ⟨t, canonicalEntries_eq_ok.mpr named'', u, perm'.symm, matched⟩

theorem Section.Matches.names (h : s.Matches same t) : (s.map (·.1)).Perm (t.map (·.1)) := by
  obtain ⟨u, perm, matched⟩ := h
  have names : s.map (·.1) = u.map (·.1) := by
    clear perm
    induction matched with
    | nil => rfl
    | cons head _ ih => rw [List.map_cons, List.map_cons, head.1, ih]
  rw [names]
  exact perm.map _

theorem Section.IsDistinct.names (h : s.IsDistinct) : (s.map (·.1)).Nodup :=
  List.Nodup.of_map (fun name => Text.codes name.toList) (by rwa [List.map_map])

theorem mem_of_get? {v : Value} (found : s.get? name = some v) : (name, v) ∈ s := by
  obtain ⟨before, after, split, -⟩ := List.lookup_eq_some_iff.mp found
  rw [← List.mem_reverse, split]
  exact List.mem_append_right _ List.mem_cons_self

/-- Where names are distinct, an entry is what its name has. -/
theorem get?_of_mem {v : Value} (distinct : (s.map (·.1)).Nodup) (mem : (name, v) ∈ s) :
    s.get? name = some v := by
  obtain ⟨before, after, split⟩ := List.append_of_mem (List.mem_reverse.mpr mem)
  have apart : (s.reverse.map (·.1)).Nodup := by
    rw [List.map_reverse, List.nodup_reverse]
    exact distinct
  refine List.lookup_eq_some_iff.mpr ⟨before, after, split, fun e earlier => ?_⟩
  rw [split, List.map_append, List.nodup_append] at apart
  have other := apart.2.2 e.1 (List.mem_map_of_mem earlier) name List.mem_cons_self
  exact bne_iff_ne.mpr other.symm

theorem Section.Matches.exists_of_mem (h : s.Matches same t) {v : Value} (mem : (name, v) ∈ s) :
    ∃ w, (name, w) ∈ t ∧ same name v w := by
  obtain ⟨u, perm, matched⟩ := h
  have among : ∃ w, (name, w) ∈ u ∧ same name v w := by
    clear perm
    induction matched with
    | nil => cases mem
    | @cons d e s u head _ ih =>
        cases List.mem_cons.mp mem with
        | inl first =>
            obtain rfl := first
            obtain rfl : name = e.1 := head.1
            exact ⟨e.2, List.mem_cons_self, head.2⟩
        | inr later =>
            obtain ⟨w, mem', related⟩ := ih later
            exact ⟨w, List.mem_cons_of_mem e mem', related⟩
  obtain ⟨w, mem', related⟩ := among
  exact ⟨w, perm.mem_iff.mp mem', related⟩

/-- What a name has in a section is related to what it has in one that matches. -/
theorem Section.Matches.get? (h : s.Matches same t) (distinct : s.IsDistinct) (name : String) :
    Option.Rel (same name) (s.get? name) (t.get? name) := by
  have distinct' : (t.map (·.1)).Nodup := h.names.nodup_iff.mp distinct.names
  cases found : s.get? name with
  | some v =>
      obtain ⟨w, mem, related⟩ := h.exists_of_mem (mem_of_get? found)
      rw [get?_of_mem distinct' mem]
      exact .some related
  | none =>
      cases found' : t.get? name with
      | none => exact .none
      | some w =>
          have named : name ∈ s.map (·.1) := h.names.mem_iff.mpr
            (List.mem_map.mpr ⟨(name, w), mem_of_get? found', rfl⟩)
          obtain ⟨d, mem, rfl⟩ := List.mem_map.mp named
          rw [get?_of_mem distinct.names mem] at found
          cases found

theorem eraseDups_of_nodup {names : List String} (h : names.Nodup) : names.eraseDups = names := by
  induction names with
  | nil => rfl
  | cons name names ih =>
      rw [List.nodup_cons] at h
      have others : (names.filter fun other => !other == name) = names :=
        List.filter_eq_self.mpr fun other mem => by
          simpa using fun same : other = name => h.1 (same ▸ mem)
      rw [List.eraseDups_cons, others, ih h.2]

/-- Sections that match have the same unknown names, and they are reported in one order. -/
theorem Section.Matches.unknownKeys (h : s.Matches same t) (distinct : s.IsDistinct) :
    unknownKeys s = unknownKeys t := by
  have perm := h.names.filter (!sectionNames.contains ·)
  have apart : ((s.map (·.1)).filter (!sectionNames.contains ·)).Nodup := distinct.names.filter _
  rw [EditConfig.unknownKeys, EditConfig.unknownKeys, eraseDups_of_nodup apart,
    eraseDups_of_nodup (perm.nodup_iff.mp apart)]
  apply Text.mergeSort_eq_of_perm perm
  have all : ((s.map (·.1)).map fun name => Text.codes name.toList).Nodup := by
    rwa [List.map_map]
  exact all.sublist (List.filter_sublist.map _)

/-! ## Sections -/

/-- The names of the sections that have entries of their own. -/
def partNames : List String :=
  ["hook_trim", "demo_trim", "transition", "hook_effect", "demo_effect", "text_style", "text_position"]

/-- Whether the value of a name is kept, or is a section whose keys have distinct names and are spelled
in another way. -/
def SameValue (name : String) (v w : Value) : Prop :=
  v = w ∨ name ∈ partNames ∧ ∃ es fs, v.opened = .mapping es ∧ w.opened = .mapping fs ∧
    HasDistinctNames es ∧ Respelled (fun _ => Eq) es fs

/-- Whether two readings of a section find the same under every name. -/
def SameSection (x y : Except Fault (Option Section)) : Prop :=
  x = y ∨ ∃ s t, x = .ok (some s) ∧ y = .ok (some t) ∧ ∀ name, s.get? name = t.get? name

variable {v w : Option Value} {x y : Except Fault (Option Section)}

/-- Steps that only ask a section for what it has under names do the same. -/
theorem SameSection.bind {α : Type} (h : SameSection x y) {k : Option Section → Except Fault α}
    (asks : ∀ s t : Section, (∀ name, s.get? name = t.get? name) → k (some s) = k (some t)) :
    (x >>= k) = (y >>= k) := by
  obtain rfl | ⟨s, t, rfl, rfl, same⟩ := h
  · rfl
  · exact asks s t same

theorem sameSection (h : Option.Rel (SameValue name) v w) (place : String) :
    SameSection (section? v place) (section? w place) := by
  cases h with
  | none => exact .inl rfl
  | @some v w h =>
      obtain rfl | ⟨-, es, fs, opened, opened', ⟨s, read, distinct⟩, spelled⟩ := h
      · exact .inl rfl
      obtain ⟨t, read', matched⟩ := spelled.section read
      refine .inr ⟨s, t, ?_, ?_, fun key => ?_⟩
      · simp only [section?, opened, read]
      · simp only [section?, opened', read']
      · have related := matched.get? distinct key
        revert related
        generalize s.get? key = a
        generalize t.get? key = b
        intro related
        cases related with
        | none => rfl
        | some same => rw [same]

theorem readTrim_sameValue (h : Option.Rel (SameValue name) v w) (place : String) :
    readTrim v place = readTrim w place := by
  unfold readTrim
  apply (sameSection h place).bind
  intro s t same
  simp only [same]

/-- A value that is spelled in another way is kept, or no text before and after. -/
theorem eq_or_not_text (h : Option.Rel (SameValue name) v w) :
    v = w ∨ (∀ kind, v ≠ some (.text kind)) ∧ ∀ kind, w ≠ some (.text kind) := by
  have plain {x : Value} {es : List (Value × Value)} (opened : x.opened = .mapping es) (kind : String) :
      some x ≠ some (.text kind) := by
    intro text
    obtain rfl := Option.some.inj text
    cases opened
  cases h with
  | none => exact .inl rfl
  | some h =>
      obtain rfl | ⟨-, es, fs, opened, opened', -⟩ := h
      · exact .inl rfl
      · exact .inr ⟨plain opened, plain opened'⟩

theorem readEffect_sameValue (h : Option.Rel (SameValue name) v w) (place : String) :
    readEffect v place = readEffect w place := by
  obtain rfl | ⟨before, after⟩ := eq_or_not_text h
  · rfl
  rw [effect_of_section before, effect_of_section after]
  apply (sameSection h place).bind
  intro s t same
  simp only [same]

theorem readTransition_sameValue (h : Option.Rel (SameValue name) v w) :
    readTransition v = readTransition w := by
  obtain rfl | ⟨before, after⟩ := eq_or_not_text h
  · rfl
  rw [transition_of_section before, transition_of_section after]
  apply (sameSection h _).bind
  intro s t same
  simp only [same]

theorem readTextStyle_sameValue (h : Option.Rel (SameValue name) v w) :
    readTextStyle v = readTextStyle w := by
  unfold readTextStyle
  apply (sameSection h _).bind
  intro s t same
  simp only [same]

theorem readTextPosition_sameValue (h : Option.Rel (SameValue name) v w) :
    readTextPosition v = readTextPosition w := by
  unfold readTextPosition
  apply (sameSection h _).bind
  intro s t same
  simp only [percent, same]

/-- The value of a name that is no section is kept. -/
theorem eq_of_sameValue (h : Option.Rel (SameValue name) v w) (plain : name ∉ partNames) : v = w := by
  cases h with
  | none => rfl
  | some h =>
      obtain rfl | ⟨part, -⟩ := h
      · rfl
      · exact absurd part plain

/-! ## The whole -/

theorem ofEntries_respelled (h : Respelled SameValue es fs) (distinct : HasDistinctNames es) :
    ofEntries es = ofEntries fs := by
  obtain ⟨s, read, distinct⟩ := distinct
  obtain ⟨t, read', matched⟩ := h.section read
  have parts := matched.get? distinct
  have audio := eq_of_sameValue (parts "audio_source") (by decide)
  unfold ofEntries
  rw [read, read']
  dsimp only
  rw [matched.unknownKeys distinct, readTrim_sameValue (parts "hook_trim"),
    readTrim_sameValue (parts "demo_trim"), readTransition_sameValue (parts "transition"),
    readEffect_sameValue (parts "hook_effect"), readEffect_sameValue (parts "demo_effect"),
    readTextStyle_sameValue (parts "text_style"), readTextPosition_sameValue (parts "text_position"),
    audio]

theorem read_of_opened {v : Value} (opened : v.opened = .mapping es) : read v = ofFault (ofEntries es) := by
  have value : ofValue v = ofEntries es := by rw [ofValue, opened]
  cases v with
  | text => cases opened
  | _ => exact congrArg ofFault value

/-- Neither the spellings of keys nor the order of entries matters: a mapping with distinct names is read
as the same configuration, or rejected with the same fault, when its keys and the keys of its sections
are respelled and its entries put in another order. For each name of parts, every style with any
blanks around it is brought to the name, and a key of ASCII is brought to a text that stays. -/
theorem read_respelled :
    (∀ (v w : Value) (es fs : List (Value × Value)), v.opened = .mapping es → w.opened = .mapping fs →
      HasDistinctNames es → Respelled SameValue es fs → read v = read w) ∧
    (∀ (n : Name) (style : Style) (before after : List Char), (∀ c ∈ before, Text.isBlank c = true) →
      (∀ c ∈ after, Text.isBlank c = true) →
        snake (String.ofList (before ++ n.spelled style ++ after)) = n.text) ∧
    ∀ key : String, (∀ c ∈ key.toList, c.toNat < 128) → snake (snake key) = snake key := by
  refine ⟨fun v w es fs opened opened' distinct spelled => ?_,
    fun n style before after hb ha => n.snake_spelled style hb ha, fun key ascii => snake_snake ascii⟩
  rw [read_of_opened opened, read_of_opened opened', ofEntries_respelled spelled distinct]

/-- A trim and a source of sound, under keys of other styles and in another order. -/
theorem read_respelled_trim :
    read (.mapping [(.text "hook_trim", .mapping [(.text "start", .int 1), (.text "end", .int 3)]),
        (.text "audio_source", .text "demo")]) =
      read (.mapping [(.text "audioSource", .text "demo"),
        (.text " hook-trim ", .mapping [(.text "endTime", .int 3), (.text "start", .int 1)])]) ∧
    snake " hookTrim" = "hook_trim" ∧ snake (snake "Hook-Trim ") = snake "Hook-Trim " := by
  let hookTrim : Name := ⟨"hook".toList, ["trim".toList], by decide, Name.small_of (by decide), by decide,
    by decide⟩
  let audioSource : Name := ⟨"audio".toList, ["source".toList], by decide, Name.small_of (by decide),
    by decide, by decide⟩
  let endTime : Name := ⟨"end".toList, ["time".toList], by decide, Name.small_of (by decide), by decide,
    by decide⟩
  have none : ∀ c ∈ [], Text.isBlank c = true := List.forall_mem_nil _
  have space : ∀ c ∈ [' '], Text.isBlank c = true := List.forall_mem_singleton.mpr (by decide)
  have ascii : ("Hook-Trim ".toList.all fun c => decide (c.toNat < 128)) = true := by decide
  have trim : canonicalKey "hook_trim" = "hook_trim" := by decide +kernel
  have audio : canonicalKey "audio_source" = "audio_source" := by decide +kernel
  have start : canonicalKey "start" = "start" := by decide +kernel
  have finish : canonicalKey "end" = "end" := by decide +kernel
  have window : SameValue "hook_trim" (.mapping [(.text "start", .int 1), (.text "end", .int 3)])
      (.mapping [(.text "endTime", .int 3), (.text "start", .int 1)]) := by
    refine .inr ⟨by decide, _, _, rfl, rfl, ?_, ?_⟩
    · refine ⟨_, canonicalEntries_eq_ok.mpr (.cons ⟨_, rfl, rfl⟩ (.cons ⟨_, rfl, rfl⟩ .nil)), ?_⟩
      simp only [start, finish]
      decide
    · refine ⟨_, .swap _ _ _, .cons ⟨_, _, rfl, rfl, .inl rfl, rfl⟩ (.cons ⟨_, _, rfl, rfl, ?_, rfl⟩ .nil)⟩
      exact .inr ⟨endTime, .camel, [], [], by decide, none, none, .inr (by decide +kernel)⟩
  refine ⟨read_respelled.1 _ _ _ _ rfl rfl ?_ ?_, ?_, ?_⟩
  · refine ⟨_, canonicalEntries_eq_ok.mpr (.cons ⟨_, rfl, rfl⟩ (.cons ⟨_, rfl, rfl⟩ .nil)), ?_⟩
    simp only [trim, audio]
    decide
  · refine ⟨_, .swap _ _ _, .cons ⟨_, _, rfl, rfl, ?_, ?_⟩ (.cons ⟨_, _, rfl, rfl, ?_, .inl rfl⟩ .nil)⟩
    · exact .inr ⟨hookTrim, .kebab, [' '], [' '], by decide, space, space, .inl (by decide +kernel)⟩
    · rw [trim]
      exact window
    · exact .inr ⟨audioSource, .camel, [], [], by decide, none, none, .inl (by decide +kernel)⟩
  · exact read_respelled.2.1 hookTrim .camel [' '] [] space none
  · exact read_respelled.2.2 "Hook-Trim " fun c mem => of_decide_eq_true (List.all_eq_true.mp ascii c mem)

end Splice.EditConfig
