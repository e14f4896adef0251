import Splice.Proofs.Storage

/-! # What becomes of a download

An address is fetched, or leads to a file, or cannot be split. A download writes the page or the file to
its destination, or it is refused with a reason; it strays if the address cannot be split, if a name on the
way to the file is too long, and if the file is the destination itself.
-/

namespace Splice

namespace FileTree

variable {t u : FileTree}

/-- Where paths lead depends on which places are taken, not on what they hold. -/
theorem place_eq (directories : ∀ l, u.isDirectory l = t.isDirectory l)
    (files : ∀ l, (u.content? l).isSome = (t.content? l).isSome) : u.place = t.place := by
  have enter : u.enter = t.enter := by
    funext l part
    simp only [FileTree.enter, directories, files]
  funext here p
  simp only [place, enter]

/-- A single name that is too long leads nowhere. -/
theorem place_long {here : Location} {name : String} (possible : FileFault.ofPath? ⟨.none, [name]⟩ = none)
    (long : nameLimit < name.utf8ByteSize) (step : name ≠ "..") :
    t.place here ⟨.none, [name]⟩ = .error .nameTooLong := by
  rw [place, possible]
  dsimp only
  split
  · rfl
  · simp only [List.dropLast_singleton, List.foldlM_nil, List.getLast?_singleton, if_neg step, if_pos long]
    rfl

end FileTree

namespace Storage

open Splice.Action Machine

variable {m n k : Machine} {url reason content : String} {p target : Path} {l q : Location}

/-! ## What an address stands for -/

/-- An address that is fetched from the network. -/
def IsFetched (url : String) : Prop :=
  ∃ a, Address.ofText url = .ok a ∧ (a.scheme = "http" ∨ a.scheme = "https")

/-- An address that leads to a file: the address of a file by its decoded path, any other as it is. -/
inductive Leads (url : String) : Path → Prop
  | uri {a : Address} (split : Address.ofText url = .ok a) (scheme : a.scheme = "file") :
      Leads url (.ofText (String.ofList (Text.Percent.decode a.path.toList)))
  | plain {a : Address} (split : Address.ofText url = .ok a)
      (scheme : a.scheme ∉ ["http", "https", "file"]) : Leads url (.ofText url)

theorem Leads.exists_address (h : Leads url p) : ∃ a, Address.ofText url = .ok a ∧
    ¬ (a.scheme = "http" ∨ a.scheme = "https") ∧ localPath a url = p := by
  cases h with
  | uri split scheme => exact ⟨_, split, by rw [scheme]; decide, by rw [localPath, if_pos scheme]⟩
  | plain split scheme =>
      simp only [List.mem_cons, List.not_mem_nil, or_false, not_or] at scheme
      exact ⟨_, split, not_or.mpr ⟨scheme.1, scheme.2.1⟩, by rw [localPath, if_neg scheme.2.2]⟩

theorem Leads.tidy (h : Leads url p) : p.Tidy := by
  cases h with
  | uri => exact Path.ofText_tidy _
  | plain => exact Path.ofText_tidy _

theorem address_cases (url : String) :
    (∃ e, Address.ofText url = .error e) ∨ IsFetched url ∨ ∃ p, Leads url p := by
  cases split : Address.ofText url with
  | error e => exact .inl ⟨e, rfl⟩
  | ok a =>
      refine .inr ?_
      by_cases fetched : a.scheme = "http" ∨ a.scheme = "https"
      · exact .inl ⟨a, split, fetched⟩
      · obtain ⟨plain, secure⟩ := not_or.mp fetched
        by_cases file : a.scheme = "file"
        · exact .inr ⟨_, .uri split file⟩
        · exact .inr ⟨_, .plain split (by simp [plain, secure, file])⟩

/-! ## The fates of a download -/

/-- What is delivered to a place: the body of an answer that is no error, or a file that is elsewhere. -/
inductive Delivers (m : Machine) (url : String) (l : Location) : String → Prop
  | page {status : Int} {reason : Option String} {body : String} (fetched : IsFetched url)
      (answer : m.web url = .response status reason body) (fine : ¬ (400 ≤ status ∧ status < 600)) :
      Delivers m url l body
  | file {p : Path} {q : Location} {content : String} (leads : Leads url p)
      (placed : m.tree.place m.here p = .ok q) (held : m.tree.content? q = some content)
      (apart : q ≠ l) : Delivers m url l content

/-- Why a download is refused: the network fails, or there is no file. -/
inductive Refuses (m : Machine) (url : String) : String → Prop
  | failed {reason : String} (fetched : IsFetched url) (answer : m.web url = .failed reason) :
      Refuses m url reason
  | broken {part reason : String} (fetched : IsFetched url) (answer : m.web url = .broken part reason) :
      Refuses m url reason
  | status {status : Int} {reason : Option String} {body text : String} (fetched : IsFetched url)
      (answer : m.web url = .response status reason body)
      (wrong : statusText? status reason url = some text) : Refuses m url text
  | missing {p : Path} (leads : Leads url p) (short : m.tree.place m.here p ≠ .error .nameTooLong)
      (absent : ∀ q, m.tree.place m.here p = .ok q → m.tree.content? q = none) :
      Refuses m url "no such file"

/-- How a download fails that is not refused. -/
inductive Strays (m : Machine) (url : String) (target : Path) (l : Location) : Failure → Prop
  | address {e : String} (split : Address.ofText url = .error e) : Strays m url target l (.address e)
  | long {p : Path} (leads : Leads url p) (long : m.tree.place m.here p = .error .nameTooLong) :
      Strays m url target l (.file ⟨.nameTooLong, p.text⟩)
  | same {p : Path} (leads : Leads url p) (placed : m.tree.place m.here p = .ok l)
      (held : (m.tree.content? l).isSome = true) :
      Strays m url target l (.sameFile (pathLiteral p) (pathLiteral target))

theorem Strays.kind_ne {f : Failure} (h : Strays m url target l f) : f.kind ≠ "DownloadError" := by
  cases h with
  | address => exact of_decide_eq_true rfl
  | long => exact of_decide_eq_true rfl
  | same => exact of_decide_eq_true rfl

theorem statusText?_eq_none {status : Int} {reason : Option String} :
    statusText? status reason url = none ↔ ¬ (400 ≤ status ∧ status < 600) := by
  rw [statusText?]
  split
  · simp
    omega
  · split
    · simp
      omega
    · simp
      omega

/-- A download has one of the three fates. -/
theorem fate_cases (m : Machine) (url : String) (target : Path) (l : Location) :
    (∃ content, Delivers m url l content) ∨ (∃ reason, Refuses m url reason) ∨
      ∃ f, Strays m url target l f := by
  rcases address_cases url with ⟨e, split⟩ | fetched | ⟨p, leads⟩
  · exact .inr (.inr ⟨_, .address split⟩)
  · cases answer : m.web url with
    | failed reason => exact .inr (.inl ⟨_, .failed fetched answer⟩)
    | broken part reason => exact .inr (.inl ⟨_, .broken fetched answer⟩)
    | response status reason body =>
        cases verdict : statusText? status reason url with
        | none => exact .inl ⟨_, .page fetched answer (statusText?_eq_none.mp verdict)⟩
        | some text => exact .inr (.inl ⟨_, .status fetched answer verdict⟩)
  · cases placed : m.tree.place m.here p with
    | error fault =>
        by_cases long : fault = .nameTooLong
        · exact .inr (.inr ⟨_, .long leads (long ▸ placed)⟩)
        · refine .inr (.inl ⟨_, .missing leads ?_ fun q found => ?_⟩)
          · rw [placed]
            exact fun same => long (Except.error.inj same)
          · cases placed.symm.trans found
    | ok q =>
        cases held : m.tree.content? q with
        | none =>
            refine .inr (.inl ⟨_, .missing leads (by simp [placed]) fun r found => ?_⟩)
            obtain rfl : q = r := Except.ok.inj (placed.symm.trans found)
            exact held
        | some content =>
            by_cases apart : q = l
            · subst apart
              exact .inr (.inr ⟨_, .same leads placed (by rw [held]; rfl)⟩)
            · exact .inl ⟨_, .file leads placed held apart⟩

/-! ## Files at the places of paths -/

/-- A file of some content at the place that a path leads to. -/
structure Written (m : Machine) (p : Path) (l : Location) (content : String) : Prop where
  target : m.tree.target m.here p = .ok l
  content : m.tree.content? l = some content

namespace Written

theorem of_place (sound : m.tree.Sound) (placed : m.tree.place m.here p = .ok l)
    (held : m.tree.content? l = some content) : Written m p l content := by
  have free : m.tree.isDirectory l = false := by
    cases directory : m.tree.isDirectory l with
    | false => rfl
    | true =>
        rw [sound l directory] at held
        cases held
  exact ⟨by simp [FileTree.target, placed, free, pure, Except.pure], held⟩

theorem placed (h : Written m p l content) : m.tree.place m.here p = .ok l :=
  (FileTree.target_eq_ok h.target).1

theorem isFile (h : Written m p l content) : m.tree.isFile m.here p = .ok true := by
  simp only [FileTree.isFile, FileTree.probe, h.placed, h.content, Option.isSome_some]

theorem find? (h : Written m p l content) : m.tree.find? m.here p = some l := by
  simp only [FileTree.find?, h.placed, h.content, Option.isSome_some, Bool.true_or, if_true]

theorem read (h : Written m p l content) : m.tree.read m.here p = .ok content := by
  obtain ⟨placed, free⟩ := FileTree.target_eq_ok h.target
  simp only [FileTree.read, placed, Outcome.ok_bind, free, h.content, Bool.false_eq_true, if_false,
    Outcome.pure_eq]

/-- There is no file at the top. -/
theorem below (h : Written m p l content) (absolute : p.isAbsolute = true) : p.parts ≠ [] := by
  intro none
  obtain ⟨placed, free⟩ := FileTree.target_eq_ok h.target
  obtain rfl : l = [] := by
    rw [(FileTree.place_eq_ok placed).2, Path.locate, none, if_pos absolute]
    rfl
  cases free

theorem readAt (h : Written m p l content) (tidy : p.Tidy) :
    m.tree.readAt m.here p.text = .ok content := by
  rw [FileTree.readAt, if_neg (by simp [Path.text_ne_empty tidy h.below]), Path.ofText_text tidy, h.read]
  simp [Path.not_endsWith_slash tidy h.below]

/-- A record of the log leaves a file as it was written, unless it goes to the file. -/
theorem log {source : Log.Source} {level : Log.Level} {message : String} (h : Written m p l content)
    (silent : l ∉ m.outlet.files) (noted : Ends (log source level message) m () n) :
    Written n p l content := by
  have same : Shrinks m n := (keeps_log_shrinks _ _ _).ends noted
  have quiet : Quiet [] m n := (keeps_log _ _ _).ends noted
  refine ⟨FileTree.target_congr same.directories (same.here ▸ h.target), ?_⟩
  rw [quiet.content l silent (List.forall_mem_nil _), h.content]

end Written

theorem find?_ne (placed : m.tree.place m.here p = .ok q) (apart : q ≠ l) :
    m.tree.find? m.here p ≠ some l := by
  rw [FileTree.find?, placed]
  dsimp only
  split
  · simpa using apart
  · exact nofun

/-- A file is written where it can be. -/
theorem exists_ends_write (aimed : m.tree.target m.here target = .ok l) (text content : String) :
    ∃ n, Ends (onTree text fun t here => t.write here target content) m () n ∧
      Written n target l content ∧ n.outlet = m.outlet := by
  refine ⟨{ m with tree := m.tree.put l content }, ?_, ⟨?_, ?_⟩, rfl⟩
  · simp only [onTree, ends_bind, ends_get]
    refine ⟨m, m, ⟨rfl, rfl⟩, ?_⟩
    simp only [FileTree.write, aimed, Except.map, ends_set]
  · exact FileTree.target_congr (fun d => m.tree.isDirectory_put l d content) aimed
  · exact (FileTree.content?_put m.tree l l content).trans (if_pos rfl)

theorem exists_ends_copy (source : CopySource) {target : Path}
    (other : m.tree.find? m.here (Path.ofText source.text) ≠ m.tree.find? m.here target)
    (read : m.tree.readAt m.here source.text = .ok content)
    (aimed : m.tree.target m.here target = .ok l) :
    ∃ n, Ends (copy source target) m () n ∧ Written n target l content ∧ n.outlet = m.outlet := by
  obtain ⟨n, written, held, outlet⟩ := exists_ends_write aimed target.text content
  refine ⟨n, ?_, held, outlet⟩
  simp only [copy, ends_bind, ends_get]
  refine ⟨m, m, ⟨rfl, rfl⟩, ?_⟩
  rw [if_neg (by simp [other])]
  exact ends_bind.mpr ⟨content, m, ends_askTree_of read, written⟩

/-- A file is not copied onto itself. -/
theorem fails_copy_same (tidy : p.Tidy) (held : Written m p l content)
    (aimed : m.tree.find? m.here target = some l) :
    Fails (copy (.ofPath p) target) m (.sameFile (pathLiteral p) (pathLiteral target)) m := by
  have found : m.tree.find? m.here (Path.ofText (CopySource.ofPath p).text) = some l := by
    rw [CopySource.ofPath, Path.ofText_text tidy, held.find?]
  have filled : (CopySource.ofPath p).text.isEmpty = false := Path.text_ne_empty tidy held.below
  simp only [copy, fails_bind, not_fails_get, ends_get, false_or]
  refine ⟨m, m, ⟨rfl, rfl⟩, ?_⟩
  rw [if_pos (by simp [filled, found, aimed])]
  exact fails_throw.mpr ⟨rfl, rfl⟩

/-! ## The parts of a download -/

/-- A download without its preparations and its report. -/
def bring (url : String) (target : Path) : Action Unit := do
  let address ← Machine.lift Failure.address (Address.ofText url)
  if address.scheme = "http" ∨ address.scheme = "https" then fetch url target
  else do
    let isFile ← Machine.askTree (localPath address url).text fun t here =>
      t.isFile here (localPath address url)
    if isFile then copy (.ofPath (localPath address url)) target
    else throw (.download url "no such file")

def report (target : Path) : Action Unit := do
  let size ← sizeAt target
  Machine.log (source 49) .info
    ("   ✓ Downloaded: " ++ target.text ++ " (" ++ toString size ++ " bytes)")

theorem download_eq (url : String) (target : Path) : download url target = (do
    Machine.makeDirectories target.parent
    Machine.log (source 31) .info
      ("   📥 Downloading: " ++ String.ofList (url.toList.take shownLength))
    bring url target
    report target) := by
  simp only [download, bring, report, bind_assoc]
  congr 1
  funext _
  congr 1
  funext _
  congr 1
  funext address
  split
  · rfl
  · simp only [bind_assoc]
    congr 1
    funext isFile
    cases isFile with
    | true => simp only [Bool.not_true, Bool.false_eq_true, if_false, if_true]
    | false =>
        -- a failure leaves out whatever comes after it
        have lost {α β : Type} (f : Failure) (rest : α → Action β) :
            (throw f : Action α) >>= rest = throw f := rfl
        simp only [Bool.not_false, Bool.false_eq_true, if_false, if_true, lost]

theorem exists_ends_report (written : Written m target l content) (silent : l ∉ m.outlet.files) :
    ∃ n, Ends (report target) m () n ∧ Written n target l content := by
  obtain ⟨n, told, (_ : Quiet [] m n)⟩ := exists_ends_log (source 49) .info
    ("   ✓ Downloaded: " ++ target.text ++ " (" ++ toString content.utf8ByteSize ++ " bytes)") m
  have sized : Ends (sizeAt target) m content.utf8ByteSize m :=
    ends_bind.mpr ⟨content, m, ends_askTree_of written.read, ends_pure.mpr ⟨rfl, rfl⟩⟩
  exact ⟨n, ends_bind.mpr ⟨_, m, sized, told⟩, written.log silent told⟩

/-- What is fetched goes through the network. -/
theorem gives_bring_fetched {o : Except Failure Unit} (fetched : IsFetched url)
    (h : Gives (fetch url target) m o n) : Gives (bring url target) m o n := by
  obtain ⟨a, split, scheme⟩ := fetched
  refine (ends_lift.mpr ⟨split, rfl⟩).bind ?_
  rwa [if_pos scheme]

theorem gives_bring_local {o : Except Failure Unit} (leads : Leads url p)
    (h : Gives (do
      let isFile ← Machine.askTree p.text fun t here => t.isFile here p
      if isFile then copy (.ofPath p) target else throw (.download url "no such file")) m o n) :
    Gives (bring url target) m o n := by
  obtain ⟨a, split, scheme, rfl⟩ := leads.exists_address
  refine (ends_lift.mpr ⟨split, rfl⟩).bind ?_
  rwa [if_neg scheme]

theorem gives_fetch {answer : WebAnswer} {o : Except Failure Unit} (web : m.web url = answer)
    (h : Gives (match answer with
      | .failed reason => throw (.download url reason)
      | .broken part reason => do
        onTree target.text fun t here => t.write here target part
        throw (.download url reason)
      | .response status reason body =>
        match statusText? status reason url with
        | some text => throw (.download url text)
        | none => onTree target.text fun t here => t.write here target body) m o n) :
    Gives (fetch url target) m o n := by
  subst web
  exact (ends_get.mpr ⟨rfl, rfl⟩ : Ends get m m m).bind h

variable {f : Failure}

theorem exists_ends_bring (sound : m.tree.Sound) (aimed : m.tree.target m.here target = .ok l)
    (h : Delivers m url l content) :
    ∃ n, Ends (bring url target) m () n ∧ Written n target l content ∧ n.outlet = m.outlet := by
  cases h with
  | page fetched answer fine =>
      obtain ⟨n, written, held, outlet⟩ := exists_ends_write aimed target.text content
      refine ⟨n, gives_bring_fetched fetched (gives_fetch answer ?_), held, outlet⟩
      simp only [statusText?_eq_none.mpr fine]
      exact written
  | @file p q content leads placed held apart =>
      have there := Written.of_place sound placed held
      have different : m.tree.find? m.here (Path.ofText (CopySource.ofPath p).text) ≠
          m.tree.find? m.here target := by
        rw [CopySource.ofPath, Path.ofText_text leads.tidy, there.find?]
        exact (find?_ne (FileTree.target_eq_ok aimed).1 apart.symm).symm
      obtain ⟨n, copied, written, outlet⟩ :=
        exists_ends_copy _ different (there.readAt leads.tidy) aimed
      refine ⟨n, gives_bring_local leads ((ends_askTree_of there.isFile).bind ?_), written, outlet⟩
      exact copied

theorem exists_fails_bring (aimed : m.tree.target m.here target = .ok l) (h : Refuses m url reason) :
    ∃ n, Fails (bring url target) m (.download url reason) n := by
  cases h with
  | failed fetched answer =>
      exact ⟨m, gives_bring_fetched fetched (gives_fetch answer (fails_throw.mpr ⟨rfl, rfl⟩))⟩
  | broken fetched answer =>
      obtain ⟨n, written, -, -⟩ := exists_ends_write aimed target.text _
      exact ⟨n, gives_bring_fetched fetched (gives_fetch answer
        (written.bind (fails_throw.mpr ⟨rfl, rfl⟩)))⟩
  | status fetched answer wrong =>
      refine ⟨m, gives_bring_fetched fetched (gives_fetch answer ?_)⟩
      simp only [wrong]
      exact fails_throw.mpr ⟨rfl, rfl⟩
  | @missing p leads short absent =>
      have none : m.tree.isFile m.here p = .ok false := by
        cases placed : m.tree.place m.here p with
        | ok q => simp [FileTree.isFile, FileTree.probe, placed, absent q placed]
        | error fault =>
            cases fault with
            | nameTooLong => exact absurd placed short
            | _ => simp only [FileTree.isFile, FileTree.probe, placed]
      refine ⟨m, gives_bring_local leads ((ends_askTree_of none).bind ?_)⟩
      exact fails_throw.mpr ⟨rfl, rfl⟩

theorem exists_strays_bring (sound : m.tree.Sound) (h : Strays m url target l f)
    (aimed : m.tree.target m.here target = .ok l) : Fails (bring url target) m f m := by
  cases h with
  | address split => exact (fails_lift.mpr ⟨_, split, rfl, rfl⟩).bind _
  | long leads long =>
      refine gives_bring_local leads ((fails_askTree_of ?_).bind _)
      simp only [FileTree.isFile, FileTree.probe, long]
  | same leads placed held =>
      obtain ⟨content, held⟩ := Option.isSome_iff_exists.mp held
      have there := Written.of_place sound placed held
      have found : m.tree.find? m.here target = some l := (Written.mk aimed held).find?
      refine gives_bring_local leads ((ends_askTree_of there.isFile).bind ?_)
      exact fails_copy_same leads.tidy there found

/-! ## The preparations -/

/-- Two machines whose files have the same places, and that have the same network. -/
structure SameShape (m n : Machine) : Prop where
  here : n.here = m.here
  web : n.web = m.web
  directories : ∀ l, n.tree.isDirectory l = m.tree.isDirectory l
  files : ∀ l, (n.tree.content? l).isSome = (m.tree.content? l).isSome

instance : IsPreorder Machine SameShape where
  refl _ := ⟨rfl, rfl, fun _ => rfl, fun _ => rfl⟩
  trans _ _ _ first second :=
    ⟨second.here.trans first.here, second.web.trans first.web,
      fun l => (second.directories l).trans (first.directories l),
      fun l => (second.files l).trans (first.files l)⟩

theorem keeps_log_sameShape (source : Log.Source) (level : Log.Level) (message : String) :
    Keeps SameShape (log source level message) := by
  refine keeps_log_of (fun m _ => ⟨rfl, rfl, fun _ => rfl, fun _ => rfl⟩)
    (fun m _ => ⟨rfl, rfl, fun _ => rfl, fun _ => rfl⟩) (fun m r l _ => ?_) source level message
  unfold appendRecord
  split
  · exact refl_of SameShape m
  · split
    · rename_i content held
      refine ⟨rfl, rfl, fun _ => rfl, fun q => ?_⟩
      rw [FileTree.content?_put]
      split
      · subst q
        rw [held]
        rfl
      · rfl
    · exact refl_of SameShape m

namespace SameShape

variable (same : SameShape k m)

include same

theorem place (p : Path) : m.tree.place m.here p = k.tree.place k.here p := by
  rw [same.here, FileTree.place_eq same.directories same.files]

theorem refuses (h : Refuses k url reason) : Refuses m url reason := by
  have web := congrFun same.web url
  cases h with
  | failed fetched answer => exact .failed fetched (web.trans answer)
  | broken fetched answer => exact .broken fetched (web.trans answer)
  | status fetched answer wrong => exact .status fetched (web.trans answer) wrong
  | missing leads short absent =>
      refine .missing leads (same.place _ ▸ short) fun q placed => ?_
      have free := absent q ((same.place _).symm.trans placed)
      rw [← Option.not_isSome_iff_eq_none] at free ⊢
      rwa [same.files]

theorem strays (h : Strays k url target l f) : Strays m url target l f := by
  cases h with
  | address split => exact .address split
  | long leads long => exact .long leads ((same.place _).trans long)
  | same leads placed held => exact .same leads ((same.place _).trans placed) ((same.files l).trans held)

theorem delivers (quiet : Quiet [] k m)
    (silent : ∀ q ∈ k.outlet.files, ∀ p, Leads url p → k.tree.place k.here p ≠ .ok q)
    (h : Delivers k url l content) : Delivers m url l content := by
  cases h with
  | page fetched answer fine => exact .page fetched ((congrFun same.web url).trans answer) fine
  | file leads placed held apart =>
      refine .file leads ((same.place _).trans placed) ?_ apart
      rw [quiet.content _ (fun logged => silent _ logged _ leads placed) (List.forall_mem_nil _), held]

end SameShape

/-- The preparations make the directories of the destination, and tell the log. -/
theorem exists_prepared (url : String) (made : Ends (makeDirectories target.parent) m () k) :
    ∃ j, SameShape k j ∧ Quiet [] k j ∧ ∀ o n,
      Gives (bring url target >>= fun _ => report target) j o n → Gives (download url target) m o n := by
  obtain ⟨j, noted, (quiet : Quiet [] k j)⟩ := exists_ends_log (source 31) .info
    ("   📥 Downloading: " ++ String.ofList (url.toList.take shownLength)) k
  refine ⟨j, (keeps_log_sameShape _ _ _).ends noted, quiet, fun o n given => ?_⟩
  rw [download_eq]
  exact made.bind (noted.bind given)

/-! ## The law of downloads -/

theorem exists_ends_download (sound : m.tree.Sound) (made : Ends (makeDirectories target.parent) m () k)
    (aimed : k.tree.target k.here target = .ok l)
    (silent : ∀ q ∈ k.outlet.files, q ≠ l ∧ ∀ p, Leads url p → k.tree.place k.here p ≠ .ok q)
    (delivers : Delivers k url l content) :
    ∃ n, Ends (download url target) m () n ∧ n.tree.read n.here target = .ok content := by
  obtain ⟨j, same, quiet, prepared⟩ := exists_prepared url made
  have grown : Quiet [] m k := (keeps_makeDirectories _).ends made
  have aimed : j.tree.target j.here target = .ok l :=
    FileTree.target_congr same.directories (same.here ▸ aimed)
  obtain ⟨w, brought, written, outlet⟩ := exists_ends_bring (quiet.sound (grown.sound sound)) aimed
    (same.delivers quiet (fun q logged => (silent q logged).2) delivers)
  have unlogged : l ∉ w.outlet.files := by
    rw [outlet, quiet.outlet]
    exact fun logged => (silent l logged).1 rfl
  obtain ⟨n, told, written⟩ := exists_ends_report written unlogged
  exact ⟨n, prepared _ n (brought.bind (gives_ok.mpr told)), written.read⟩

theorem exists_fails_download (made : Ends (makeDirectories target.parent) m () k)
    (aimed : k.tree.target k.here target = .ok l) (refuses : Refuses k url reason) :
    ∃ n, Fails (download url target) m (.download url reason) n := by
  obtain ⟨j, same, -, prepared⟩ := exists_prepared url made
  have aimed : j.tree.target j.here target = .ok l :=
    FileTree.target_congr same.directories (same.here ▸ aimed)
  obtain ⟨n, failed⟩ := exists_fails_bring aimed (same.refuses refuses)
  exact ⟨n, prepared _ n (failed.bind _)⟩

theorem exists_strays_download (sound : m.tree.Sound) (made : Ends (makeDirectories target.parent) m () k)
    (aimed : k.tree.target k.here target = .ok l) (strays : Strays k url target l f) :
    ∃ n, Fails (download url target) m f n := by
  obtain ⟨j, same, quiet, prepared⟩ := exists_prepared url made
  have grown : Quiet [] m k := (keeps_makeDirectories _).ends made
  have aimed : j.tree.target j.here target = .ok l :=
    FileTree.target_congr same.directories (same.here ▸ aimed)
  have failed := exists_strays_bring (quiet.sound (grown.sound sound)) (same.strays strays) aimed
  exact ⟨j, prepared _ j (failed.bind _)⟩

/-- Surroundings with a file to store. -/
def stocked : Machine where
  tree := ⟨[(["a.mp4"], "clip")], []⟩

theorem stocked_sound : stocked.tree.Sound := by
  intro l directory
  have top : l = [] := by simpa [stocked, FileTree.isDirectory] using directory
  rw [top]
  rfl

/-- Surroundings whose network gives an answer without the content that was asked for. -/
def redirecting : Machine := { stocked with web := fun _ => .response 304 (some "Not Modified") "x" }

/-- A name of film symbols is an address of its own. -/
theorem address_symbols (n : Nat) : Address.ofText (String.ofList (List.replicate n '🎬')) =
    .ok ⟨"", String.ofList (List.replicate n '🎬')⟩ := by
  have clean : ((List.replicate n '🎬').dropWhile Address.isLeading).filter (!Address.isDropped ·) =
      List.replicate n '🎬' := by
    simp [Address.isLeading, Address.isDropped]
  have scheme : Address.splitScheme (List.replicate n '🎬') = ("", List.replicate n '🎬') := by
    simp [Address.splitScheme, Address.upTo]
  have host : Address.splitHost (List.replicate n '🎬') = ([], List.replicate n '🎬') := by
    rw [Address.splitHost, if_neg]
    intro same
    have mem : '/' ∈ (List.replicate n '🎬').take 2 := same ▸ List.mem_cons_self
    exact absurd (List.eq_of_mem_replicate (List.mem_of_mem_take mem)) (by decide)
  have path : (Address.upTo (· == '?') (Address.upTo (· == '#') (List.replicate n '🎬')).1).1 =
      List.replicate n '🎬' := by
    simp [Address.upTo]
  rw [Address.ofText, String.toList_ofList, clean]
  dsimp only
  rw [scheme]
  dsimp only
  rw [host]
  dsimp only
  rw [path]
  rfl

/-- Sixty-four of them, of four bytes each, are too long for a name. -/
theorem strays_symbols (target : Path) (l : Location) :
    ∃ f, Strays stocked (String.ofList (List.replicate 64 '🎬')) target l f ∧ f.kind = "OSError" := by
  have steps : Path.ofText (String.ofList (List.replicate 64 '🎬')) =
      ⟨.none, [String.ofList (List.replicate 64 '🎬')]⟩ := by
    rw [Path.ofText, String.toList_ofList]
    decide +kernel
  refine ⟨_, .long (.plain (address_symbols 64) (by decide)) ?_, rfl⟩
  have text : (Path.mk .none [String.ofList (List.replicate 64 '🎬')]).text =
      String.ofList (List.replicate 64 '🎬') := by
    simp only [Path.text, Path.rootText, List.cons_ne_nil, and_false, if_false, String.empty_append]
    rfl
  have possible : FileFault.ofPath? ⟨.none, [String.ofList (List.replicate 64 '🎬')]⟩ = none := by
    rw [FileFault.ofPath?, text, FileFault.ofText?, Text.isFileName, String.toList_ofList]
    decide +kernel
  rw [steps]
  exact FileTree.place_long possible (by decide +kernel) (by decide +kernel)

end Storage
end Splice
