import FaceHal.KeyedScan
import FaceHal.TemplateLoading

/-!
# Loading every template of a user

`loadAllTemplatesForUser` walks the directory once and removes the files of faces
that do not load. What it returns is a scan of the names for the first template
of each face. A removal that fails leaves its error in the code that the loop
tests, which ends the loop: the entries after it are not looked at. The last
theorem says for which directories and failures this loses nothing.
-/
namespace FaceHal

/-- The calls that the loop over the entries issues. -/
def StorageCall.Cleans (c : StorageCall) : Prop := c.Loads ∨ ∃ p, c = .remove p

/-- Every call but those with which a save makes and writes its files. -/
def StorageCall.WritesNone : StorageCall → Prop
  | .encrypt _ _ | .generateMac _ | .openTruncated _ | .write _ _ => False
  | .close _ | .chmod _ _ | .rename _ _ | .unlink _ => False
  | _ => True

theorem StorageCall.Loads.writesNone {c : StorageCall} (h : c.Loads) : c.WritesNone := by
  cases c with
  | encrypt _ _ | generateMac _ | openTruncated _ | write _ _ => exact h.elim
  | close _ | chmod _ _ | rename _ _ | unlink _ => exact h.elim
  | _ => trivial

namespace FaceStorageManager
open FaceTemplateSerializer Program KeyedScan

/-- The face an entry is taken for, if the loop looks at it. -/
def templateKey (n : Text) : Option Int32 :=
  if namesTemplate n && parseFaceId n != -1 then some (parseFaceId n) else none

theorem templateKey_eq_some {n : Text} {f : Int32} :
    templateKey n = some f ↔ namesTemplate n = true ∧ parseFaceId n = f ∧ f ≠ -1 := by
  unfold templateKey
  split_ifs with h
  · rw [Bool.and_eq_true, bne_iff_ne] at h
    constructor
    · intro he
      obtain rfl := Option.some.inj he
      exact ⟨h.1, rfl, h.2⟩
    · rintro ⟨-, rfl, -⟩
      rfl
  · refine iff_of_false (by simp) ?_
    rintro ⟨hn, rfl, hf⟩
    exact h (by simp [hn, hf])

theorem templateKey_of_programName {f : Int32} {n : Text} (h : ProgramName f n) (hf : f ≠ -1) :
    templateKey n = some f :=
  templateKey_eq_some.mpr ⟨h.parse.1, h.parse.2, hf⟩

/-- What auto-cleaning may do to the files: those it removes belong to faces of
the user that do not load. -/
structure Cleaned (C : Crypto) (u : Int32) (s t : FileSystem) : Prop where
  hasDir : t.hasDir (userDirectoryName u) = true
  files : ∀ p, t.fileAt p = s.fileAt p ∨
    t.fileAt p = none ∧ p.dir = userDirectoryName u ∧ stored C u (parseFaceId p.name) s = none

section cleaning
variable {C : Crypto} {u : Int32} {s t : FileSystem}

theorem Cleaned.refl (h : s.hasDir (userDirectoryName u) = true) : Cleaned C u s s :=
  ⟨h, fun _ => .inl rfl⟩

theorem Cleaned.stored (h : Cleaned C u s t) (v f : Int32) : stored C v f t = stored C v f s := by
  have same : ∀ p, p = filePath v f ∨ p = plaintextPath v f →
      t.fileAt p = s.fileAt p ∨ t.fileAt p = none ∧ FaceStorageManager.stored C v f s = none := by
    intro p hp
    rcases h.files p with hs | ⟨hn, hdir, hnone⟩
    · exact .inl hs
    · refine .inr ⟨hn, ?_⟩
      have hpath : (⟨userDirectoryName u, p.name⟩ : Path) = p := by rw [← hdir]
      rw [← hpath] at hp
      obtain ⟨rfl, hf⟩ := parseFaceId_of_path hp
      rwa [← hf]
  rcases same _ (.inl rfl) with he | ⟨he, hnone⟩
  · rcases same _ (.inr rfl) with hp | ⟨hp, hnone⟩
    · exact stored_congr C v f he hp
    · have hor := hnone
      unfold FaceStorageManager.stored at hor
      rw [hnone, FaceStorageManager.stored, he, hp, (Option.or_eq_none_iff.mp hor).1]
      rfl
  · have hor := hnone
    unfold FaceStorageManager.stored at hor
    rw [hnone, FaceStorageManager.stored, he]
    rcases same _ (.inr rfl) with hp | ⟨hp, -⟩
    · rw [hp, (Option.or_eq_none_iff.mp hor).2]
      rfl
    · rw [hp]
      rfl

theorem Cleaned.erase (h : Cleaned C u s t) {n : Text}
    (hn : FaceStorageManager.stored C u (parseFaceId n) s = none) :
    Cleaned C u s (t.erase ⟨userDirectoryName u, n⟩) := by
  refine ⟨by simpa using h.hasDir, ?_⟩
  intro p
  by_cases hp : p = ⟨userDirectoryName u, n⟩
  · subst hp
    exact .inr ⟨by simp, rfl, hn⟩
  · rw [FileSystem.fileAt_erase_ne _ hp]
    exact h.files p

end cleaning

section entries
variable {u : Int32} {dir n : Text} {rest : List Text} {seen : List Int32}
variable {templates : List FaceTemplate}

theorem loadEntries_skip (h : ∀ f, templateKey n = some f → f ∈ seen) :
    loadEntries u dir (n :: rest) false seen templates =
      loadEntries u dir rest false seen templates := by
  rw [loadEntries, if_neg Bool.false_ne_true]
  by_cases hlook : (namesTemplate n && parseFaceId n != -1) = true
  · rw [if_pos hlook]
    exact if_pos (h _ (if_pos hlook))
  · exact if_neg hlook

theorem loadEntries_look {f : Int32} (hk : templateKey n = some f) (hf : f ∉ seen) :
    loadEntries u dir (n :: rest) false seen templates =
      loadTemplate u f freshTemplate >>= fun r =>
        if r.1 then loadEntries u dir rest false (f :: seen) (templates ++ [r.2])
        else invoke (.remove ⟨dir, n⟩) >>= fun removed =>
          loadEntries u dir rest (!removed) seen templates := by
  obtain ⟨hname, rfl, hne⟩ := templateKey_eq_some.mp hk
  have hlook : (namesTemplate n && parseFaceId n != -1) = true := by simp [hname, hne]
  rw [loadEntries, if_neg Bool.false_ne_true, if_pos hlook]
  exact if_neg hf

end entries

section rules
variable {C : Crypto} {fault : StorageCall → Fault} {s₀ s : FileSystem} {u : Int32}
variable (stuck : Path → Prop) [DecidablePred stuck]

/-- The loop keeps what the scan of the names keeps, in the directory as it was
at the beginning. -/
theorem wp_loadEntries (h : ∀ c : StorageCall, c.Loads → fault c = .never)
    (hr : ∀ p, fault (.remove p) = if stuck p then .always else .never)
    {names : List Text} {seen : List Int32} {templates : List FaceTemplate}
    (hs : Cleaned C u s₀ s) {Q : List FaceTemplate → FileSystem → Prop}
    (hQ : ∀ t, Cleaned C u s₀ t → Q (templates ++ scan templateKey (stored C u · s₀)
      (fun n => stuck ⟨userDirectoryName u, n⟩) names seen) t) :
    (loadEntries u (userDirectoryName u) names false seen templates).wp
    (storageEnv C fault) Q s := by
  induction names generalizing s seen templates with
  | nil =>
      have hend := hQ s hs
      rw [scan, List.append_nil] at hend
      exact hend
  | cons n rest ih =>
      by_cases hskip : ∀ k, templateKey n = some k → k ∈ seen
      · rw [loadEntries_skip hskip]
        refine ih hs ?_
        intro t ht
        rw [← scan_skip hskip]
        exact hQ t ht
      push Not at hskip
      obtain ⟨f, hk, hseen⟩ := hskip
      rw [loadEntries_look hk hseen, wp_bind]
      refine wp_loadTemplate h ?_
      rintro ⟨ok, tmpl⟩ hok
      rw [FileSystem.mkdir_of_hasDir hs.hasDir]
      rw [hs.stored] at hok
      cases ok with
      | true =>
          refine ih hs ?_
          intro t ht
          have hend := hQ t ht
          rw [scan_value hk hseen hok.symm] at hend
          rw [List.append_assoc]
          exact hend
      | false =>
          have hnone : stored C u f s₀ = none := hok.symm
          intro r t hcall
          simp only [storageEnv, hr] at hcall
          split_ifs at hcall with hst
          · -- the removal failed: the loop breaks at the next entry
            obtain ⟨rfl, rfl⟩ := hcall
            have hend := hQ _ hs
            rw [scan_miss hk hseen hnone, if_pos hst, List.append_nil] at hend
            cases rest with
            | nil => exact hend
            | cons m rest => exact hend
          · obtain ⟨rfl, rfl⟩ := hcall
            have hparse : stored C u (parseFaceId n) s₀ = none := by
              rw [(templateKey_eq_some.mp hk).2.1]
              exact hnone
            refine ih (hs.erase hparse) ?_
            intro t ht
            have hend := hQ t ht
            rw [scan_miss hk hseen hnone, if_neg hst] at hend
            exact hend

end rules

theorem uses_invoke_bind {P : StorageCall → Prop} {c : StorageCall} {α : Type}
    {f : c.Reply → Program StorageI α} :
    (invoke c >>= f).Uses P ↔ P c ∧ ∀ r, (f r).Uses P := Iff.rfl

theorem uses_getUserDirectory (u : Int32) : (getUserDirectory u).Uses StorageCall.Loads := by
  unfold getUserDirectory
  refine ⟨trivial, fun found => ?_⟩
  cases found with
  | true => trivial
  | false => exact ⟨trivial, fun _ => ⟨trivial, fun _ => trivial⟩⟩

theorem uses_getFilePath (u f : Int32) : (getFilePath u f).Uses StorageCall.Loads :=
  uses_bind (uses_getUserDirectory u) fun _ => trivial

theorem uses_getPlaintextFilePath (u f : Int32) :
    (getPlaintextFilePath u f).Uses StorageCall.Loads :=
  uses_bind (uses_getUserDirectory u) fun _ => trivial

theorem uses_readFile (p : Path) : (readFile p).Uses StorageCall.Loads :=
  ⟨trivial, fun _ => trivial⟩

theorem uses_deserializeAndValidate (u f : Int32) (data : Bytes) (out : FaceTemplate) :
    (deserializeAndValidate u f data out).Uses StorageCall.Loads := by
  refine uses_bind ?_ ?_
  · unfold deserialize
    split_ifs
    · trivial
    · refine ⟨trivial, fun ok => ?_⟩
      cases ok with
      | true => exact ⟨trivial, fun _ => trivial⟩
      | false => trivial
  · rintro ⟨ok, t⟩
    cases ok <;> trivial

theorem uses_loadPlaintext (u f : Int32) (out : FaceTemplate) :
    (loadPlaintext u f out).Uses StorageCall.Loads := by
  refine uses_bind (uses_getPlaintextFilePath u f) fun p => ?_
  refine uses_bind (uses_readFile p) fun data => ?_
  split_ifs
  · trivial
  · exact uses_deserializeAndValidate u f data out

theorem uses_loadTemplate (u f : Int32) (out : FaceTemplate) :
    (loadTemplate u f out).Uses StorageCall.Loads := by
  refine uses_bind (uses_getFilePath u f) fun p => ?_
  refine uses_bind (uses_readFile p) fun data => ?_
  split_ifs
  · exact uses_loadPlaintext u f out
  · rw [uses_invoke_bind]
    refine ⟨trivial, fun plain => ?_⟩
    split_ifs
    · exact uses_loadPlaintext u f out
    · refine uses_bind (uses_deserializeAndValidate u f plain out) ?_
      rintro ⟨ok, t⟩
      cases ok with
      | true => trivial
      | false => exact uses_loadPlaintext u f t

theorem uses_loadEntries (u : Int32) (dir : Text) (names : List Text) (failed : Bool)
    (seen : List Int32) (templates : List FaceTemplate) :
    (loadEntries u dir names failed seen templates).Uses StorageCall.Cleans := by
  induction names generalizing failed seen templates with
  | nil => trivial
  | cons n rest ih =>
      unfold loadEntries
      dsimp only
      split_ifs
      · trivial
      · exact ih _ _ _
      · refine uses_bind ((uses_loadTemplate u _ _).mono fun c hc => Or.inl hc) ?_
        rintro ⟨ok, t⟩
        cases ok with
        | true => exact ih _ _ _
        | false => exact ⟨.inr ⟨_, rfl⟩, fun _ => ih _ _ _⟩
      · exact ih _ _ _

theorem uses_removeIfPresent (p : Path) : (removeIfPresent p).Uses StorageCall.WritesNone := by
  refine ⟨trivial, fun found => ?_⟩
  cases found with
  | true => exact ⟨trivial, fun _ => trivial⟩
  | false => trivial

theorem uses_removeUser (u : Int32) : (removeUser u).Uses StorageCall.WritesNone := by
  refine uses_bind ((uses_getUserDirectory u).mono fun _ h => h.writesNone) fun dir => ?_
  refine ⟨trivial, fun found => ?_⟩
  cases found with
  | true => exact ⟨trivial, fun _ => trivial⟩
  | false => trivial

theorem uses_wipeIfEmpty (u : Int32) : (wipeIfEmpty u).Uses StorageCall.WritesNone := by
  refine uses_bind ((uses_getUserDirectory u).mono fun _ h => h.writesNone) fun dir => ?_
  rw [uses_invoke_bind]
  refine ⟨trivial, fun names => ?_⟩
  dsimp only
  split_ifs
  · exact uses_bind (uses_removeUser u) fun _ => trivial
  · trivial

theorem uses_deleteTemplate (u f : Int32) : (deleteTemplate u f).Uses StorageCall.WritesNone := by
  refine uses_bind ((uses_getFilePath u f).mono fun _ h => h.writesNone) fun path => ?_
  refine uses_bind ((uses_getPlaintextFilePath u f).mono fun _ h => h.writesNone) fun plain => ?_
  refine uses_bind (uses_removeIfPresent path) fun _ => ?_
  refine uses_bind (uses_removeIfPresent plain) fun _ => ?_
  exact uses_bind (uses_wipeIfEmpty u) fun _ => trivial

/-- The files decide which removals fail; no other call does. -/
def removalFails (stuck : Path → Prop) [DecidablePred stuck] : StorageCall → Fault
  | .remove p => if stuck p then .always else .never
  | _ => .never

theorem removalFails_of_loads (stuck : Path → Prop) [DecidablePred stuck] (c : StorageCall)
    (h : c.Loads) : removalFails stuck c = .never := by
  cases c with
  | remove _ => exact h.elim
  | _ => rfl

/-- Each face that an entry names and that loads is returned once, with its
template, and nothing else is. -/
def ReturnsExactly (C : Crypto) (u : Int32) (s : FileSystem) (names : List Text)
    (ts : List FaceTemplate) : Prop :=
  (ts.map FaceTemplate.faceId).Nodup ∧
    ∀ x, x ∈ ts ↔ ∃ n ∈ names, ProgramName x.faceId n ∧ some x ∈ loadOutcomes C u x.faceId s

/-- No entry of a face that does not load, and whose removal fails, stands before
the first entry of a face that loads. -/
def NothingBlocked (C : Crypto) (stuck : Path → Prop) (u : Int32) (s : FileSystem)
    (names : List Text) : Prop :=
  ∀ pre n post, names = pre ++ n :: post → stuck ⟨userDirectoryName u, n⟩ →
    (∃ f, ProgramName f n ∧ none ∈ loadOutcomes C u f s) →
      ∀ m ∈ post, ∀ g x, ProgramName g m → some x ∈ loadOutcomes C u g s →
        ∃ k ∈ pre, ProgramName g k

section result
variable {C : Crypto} {stuck : Path → Prop} {u : Int32} {s t : FileSystem}
variable {names : List Text} {ts : List FaceTemplate} {tr : List (Event StorageI)}

theorem nothingBlocked_iff_unblocked (hkeys : ∀ n ∈ names, ∃ f, f ≠ -1 ∧ ProgramName f n) :
    NothingBlocked C stuck u s names ↔ Unblocked templateKey (stored C u · s)
      (fun n => stuck ⟨userDirectoryName u, n⟩) names [] := by
  have key : ∀ n ∈ names, ∀ f, templateKey n = some f ↔ ProgramName f n := by
    intro n hn f
    obtain ⟨g, hg, hname⟩ := hkeys n hn
    rw [templateKey_of_programName hname hg, Option.some_inj]
    constructor
    · rintro rfl
      exact hname
    · intro h
      exact hname.parse.2.symm.trans h.parse.2
  constructor
  · rintro h pre n post rfl hst ⟨f, hf, hnone⟩ m hm g v hg hv
    obtain ⟨k, hk, hkg⟩ := h pre n post rfl hst ⟨f, (key n (by simp) f).mp hf, by
      rw [loadOutcomes_eq]; exact hnone.symm⟩ m hm g v ((key m (by simp [hm]) g).mp hg) (by
      rw [loadOutcomes_eq]; exact hv.symm)
    exact .inr ⟨k, hk, (key k (by simp [hk]) g).mpr hkg⟩
  · rintro h pre n post rfl hst ⟨f, hf, hnone⟩ m hm g v hg hv
    rw [loadOutcomes_eq] at hnone hv
    rcases h pre n post rfl hst ⟨f, (key n (by simp) f).mpr hf, hnone.symm⟩ m hm g v
      ((key m (by simp [hm]) g).mpr hg) hv.symm with hin | ⟨k, hk, hkg⟩
    · cases hin
    · exact ⟨k, hk, (key k (by simp [hk]) g).mp hkg⟩

variable [DecidablePred stuck]

/-- One run of `loadAllTemplatesForUser`: it lists the directory once and returns
the scan of the list. -/
theorem run_loadAll (hrun : Run (traced (storageEnv C (removalFails stuck)))
      (loadAllTemplatesForUser u) (s, []) ts (t, tr))
    (hopen : (⟨.openDirectory (userDirectoryName u), some names⟩ : Event StorageI) ∈ tr) :
    (∀ n ∈ names, ∃ content, s.fileAt ⟨userDirectoryName u, n⟩ = some content) ∧
    ts = scan templateKey (stored C u · s) (fun n => stuck ⟨userDirectoryName u, n⟩) names [] := by
  have notOpen : ∀ (e : Event StorageI) (tr' : List (Event StorageI)),
      (∀ e ∈ tr', StorageCall.Cleans e.call) → e ∈ tr' →
        ∀ d r, e ≠ ⟨.openDirectory d, r⟩ := by
    rintro e tr' hall he d r rfl
    rcases hall _ he with h | ⟨p, h⟩
    · exact h
    · cases h
  obtain ⟨dir, ⟨s₁, tr₁⟩, hdir, hrest⟩ := run_bind.mp hrun
  obtain ⟨rfl, rfl⟩ : dir = userDirectoryName u ∧ s₁ = s.mkdir (userDirectoryName u) :=
    hdir.erase.wp ((wp_getUserDirectory (Q := fun d s₁ => d = userDirectoryName u ∧
      s₁ = s.mkdir (userDirectoryName u)) fun c hc =>
      removalFails_of_loads stuck c hc.loads).mpr ⟨rfl, rfl⟩)
  obtain ⟨tr₁', htr₁, hall₁⟩ := hdir.events (P := StorageCall.Cleans)
    ((uses_getUserDirectory u).mono fun _ hc => Or.inl hc)
  obtain ⟨r, ⟨s₂, tr₂⟩, ⟨hcall, htr₂⟩, hloop⟩ := run_call.mp hrest
  have hd : (s.mkdir (userDirectoryName u)).hasDir (userDirectoryName u) = true := by simp
  have hworks : Works C (.openDirectory (userDirectoryName u))
      (s.mkdir (userDirectoryName u)) r s₂ :=
    hcall
  obtain ⟨rfl, l, l', hl, hperm, rfl⟩ := works_openDirectory hd hworks
  obtain ⟨tr₃, htr₃, hall₃⟩ := hloop.events (uses_loadEntries u _ l' false [] [])
  -- the only listing in the trace is this one
  have hnames : names = l' := by
    simp only at htr₁ htr₂ htr₃
    rw [htr₃, htr₂, htr₁, List.nil_append] at hopen
    rcases List.mem_append.mp hopen with hopen | hopen
    · rcases List.mem_append.mp hopen with hopen | hopen
      · exact absurd rfl (notOpen _ _ hall₁ hopen _ _)
      · have he := List.mem_singleton.mp hopen
        injection he with _ he
        exact Option.some.inj he
    · exact absurd rfl (notOpen _ _ hall₃ hopen _ _)
  subst hnames
  refine ⟨?_, ?_⟩
  · intro n hn
    simpa using (FileSystem.mem_entries hl n).mp (hperm.mem_iff.mp hn)
  · refine hloop.erase.wp (Q := fun ts _ => ts = _) ?_
    refine wp_loadEntries stuck (removalFails_of_loads stuck) (fun _ => rfl)
      (Cleaned.refl (by simp)) ?_
    intro t _
    simp only [stored_mkdir, List.nil_append]

theorem keyOf_stored (k : Int32) (v : FaceTemplate) (h : stored C u k s = some v) : v.faceId = k :=
  (stored_ids h).2

theorem returnsExactly_iff_complete
    (hkeys : ∀ n ∈ names, ∃ f, f ≠ -1 ∧ ProgramName f n)
    (hts : ts = scan templateKey (stored C u · s) (fun n => stuck ⟨userDirectoryName u, n⟩)
      names []) :
    ReturnsExactly C u s names ts ↔ Complete templateKey (stored C u · s) names [] ts := by
  constructor
  · rintro ⟨-, hall⟩ n hn k v hk hv
    obtain ⟨f, hf, hname⟩ := hkeys n hn
    obtain rfl := Option.some.inj ((templateKey_of_programName hname hf).symm.trans hk)
    refine .inr ((hall v).mpr ⟨n, hn, ?_, ?_⟩)
    · rwa [keyOf_stored f v hv]
    · rw [keyOf_stored f v hv, loadOutcomes_eq]
      exact hv.symm
  · intro hcomplete
    refine ⟨?_, ?_⟩
    · rw [hts]
      exact scan_nodup keyOf_stored names []
    · intro x
      constructor
      · intro hx
        rw [hts] at hx
        obtain ⟨n, hn, k, hk, hv, -⟩ := mem_scan hx
        obtain ⟨f, hf, hname⟩ := hkeys n hn
        obtain rfl := Option.some.inj ((templateKey_of_programName hname hf).symm.trans hk)
        rw [keyOf_stored f x hv]
        refine ⟨n, hn, hname, ?_⟩
        rw [loadOutcomes_eq]
        exact hv.symm
      · rintro ⟨n, hn, hname, hload⟩
        rw [loadOutcomes_eq] at hload
        obtain ⟨f, hf, hname'⟩ := hkeys n hn
        have hfx : f = x.faceId := hname'.parse.2.symm.trans hname.parse.2
        subst hfx
        rcases hcomplete n hn _ x (templateKey_of_programName hname hf) hload.symm with h | h
        · cases h
        · exact h

/-- Loading all templates of a user returns exactly the faces that load if and
only if no failed removal stands before one of them. -/
theorem loadAll_returnsExactly_iff
    (hnames : ∀ n content, s.fileAt ⟨userDirectoryName u, n⟩ = some content →
      ∃ f, f ≠ -1 ∧ ProgramName f n)
    (hrun : Run (traced (storageEnv C (removalFails stuck))) (loadAllTemplatesForUser u)
      (s, []) ts (t, tr))
    (hopen : (⟨.openDirectory (userDirectoryName u), some names⟩ : Event StorageI) ∈ tr) :
    ReturnsExactly C u s names ts ↔ NothingBlocked C stuck u s names := by
  obtain ⟨hfiles, hts⟩ := run_loadAll hrun hopen
  have hkeys : ∀ n ∈ names, ∃ f, f ≠ -1 ∧ ProgramName f n := by
    intro n hn
    obtain ⟨content, hc⟩ := hfiles n hn
    exact hnames n content hc
  rw [returnsExactly_iff_complete hkeys hts, nothingBlocked_iff_unblocked hkeys, hts]
  exact complete_scan_iff keyOf_stored (by simp)

end result

/-- Every call succeeds, except the removals that cannot. -/
def answerStuck (C : Crypto) (stuck : Path → Prop) [DecidablePred stuck] :
    (c : StorageCall) → FileSystem → c.Reply × FileSystem
  | .remove p, s => if stuck p then (false, s) else (true, s.erase p)
  | c, s => answer C 0 c s

theorem removalFails_answerStuck (C : Crypto) (stuck : Path → Prop) [DecidablePred stuck]
    (c : StorageCall) (s : FileSystem) :
    storageEnv C (removalFails stuck) c s (answerStuck C stuck c s).1
      (answerStuck C stuck c s).2 := by
  cases c with
  | remove p =>
      simp only [storageEnv, removalFails, answerStuck]
      by_cases hp : stuck p
      · simp only [if_pos hp]
        exact ⟨rfl, rfl⟩
      · simp only [if_neg hp]
        exact ⟨rfl, rfl⟩
  | _ => exact storageEnv_of_works (works_answer C 0 _ s) (by simp [removalFails])

/-- A template of face 2 of user 0. -/
def sampleTemplate : FaceTemplate := ⟨1, 2, 0, [5], 0, []⟩

/-- Another template of the same face. -/
def newerTemplate : FaceTemplate := { sampleTemplate with templateData := [6] }

/-- A good plaintext file of face 2, and an encrypted file of face 1 that is empty. -/
def clutteredDirectory : FileSystem :=
  ((FileSystem.empty.mkdir (userDirectoryName 0)).put (plaintextPath 0 2)
    (payload sampleTemplate ++ toyCrypto.mac (payload sampleTemplate))).put (filePath 0 1) []

/-- The run in which the removal of the empty file fails. -/
def blockedRun : List FaceTemplate × FileSystem × List (Event StorageI) :=
  (loadAllTemplatesForUser 0).eval (recording (answerStuck toyCrypto.toCrypto (· = filePath 0 1)))
    (clutteredDirectory, [])

theorem run_blockedRun :
    Run (traced (storageEnv toyCrypto.toCrypto (removalFails (· = filePath 0 1))))
      (loadAllTemplatesForUser 0) (clutteredDirectory, []) blockedRun.1 blockedRun.2 :=
  run_eval (fun c s => ⟨removalFails_answerStuck _ _ c s.1, rfl⟩) _ _

theorem blockedRun_lists : (⟨.openDirectory (userDirectoryName 0), some [fileName 1,
    plaintextFileName 2]⟩ : Event StorageI) ∈ blockedRun.2.2 :=
  List.mem_of_getElem? (i := 1) rfl

theorem clutteredDirectory_names (n : Text) (content : Bytes)
    (h : clutteredDirectory.fileAt ⟨userDirectoryName 0, n⟩ = some content) :
    ∃ f, f ≠ -1 ∧ ProgramName f n := by
  unfold clutteredDirectory at h
  rw [FileSystem.fileAt_put] at h
  split_ifs at h with h₁
  · exact ⟨1, by decide, by rw [(Path.mk.inj h₁.1).2]; exact .encrypted⟩
  · rw [FileSystem.fileAt_put] at h
    split_ifs at h with h₂
    · exact ⟨2, by decide, by rw [(Path.mk.inj h₂.1).2]; exact .plaintext⟩
    · simp at h

theorem loadAll_loses_face : ¬ ∀ (C : Crypto) (stuck : Path → Prop) [DecidablePred stuck]
    (u : Int32)
    (s t : FileSystem) (names : List Text) (ts : List FaceTemplate) (tr : List (Event StorageI)),
    (∀ n content, s.fileAt ⟨userDirectoryName u, n⟩ = some content →
      ∃ f, f ≠ -1 ∧ ProgramName f n) →
    Run (traced (storageEnv C (removalFails stuck))) (loadAllTemplatesForUser u) (s, []) ts
      (t, tr) →
    (⟨.openDirectory (userDirectoryName u), some names⟩ : Event StorageI) ∈ tr →
    ReturnsExactly C u s names ts := by
  intro h
  have hall := (h _ _ _ _ _ _ _ _ clutteredDirectory_names run_blockedRun blockedRun_lists).2
  have hnil : blockedRun.1 = [] := rfl
  obtain ⟨x, hx⟩ : ∃ x, stored toyCrypto.toCrypto 0 2 clutteredDirectory = some x := ⟨_, rfl⟩
  have hid : x.faceId = 2 := keyOf_stored 2 x hx
  have hmem : x ∈ blockedRun.1 := by
    refine (hall x).mpr ⟨plaintextFileName 2, by simp, ?_, ?_⟩
    · rw [hid]
      exact .plaintext
    · rw [hid, loadOutcomes_eq]
      exact hx.symm
  rw [hnil] at hmem
  cases hmem

theorem loadAll_blocked_instance : ReturnsExactly toyCrypto.toCrypto 0 clutteredDirectory
      [fileName 1, plaintextFileName 2] blockedRun.1 ↔
    NothingBlocked toyCrypto.toCrypto (· = filePath 0 1) 0 clutteredDirectory
      [fileName 1, plaintextFileName 2] :=
  loadAll_returnsExactly_iff clutteredDirectory_names run_blockedRun blockedRun_lists

end FaceStorageManager
end FaceHal
