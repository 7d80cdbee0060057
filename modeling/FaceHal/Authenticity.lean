import FaceHal.DirectoryScan
import FaceHal.Transition

/-!
# Templates that an adversary cannot forge

An adversary rewrites the files of the store between any two calls, so a file
call may answer anything. What is left is the MAC: a verification accepts only
data that was signed before. From there the argument runs through the parser,
which is injective on what was signed, to the identity check. Decryption is not
trusted at all, and neither is the output template that a failed attempt leaves
behind.
-/
namespace FaceHal

/-- The environment of the store when the files are the adversary's. The state is
the data signed so far. -/
def hostileEnv (currentVersion : UInt32) : Environment StorageI (List Bytes)
  | .generateMac d, signed, r, signed' => (r = [] ∨ r.length = 32) ∧ signed' = d :: signed
  | .verifyMac d _, signed, r, signed' => (r = true → d ∈ signed) ∧ signed' = signed
  | .currentVersion, signed, r, signed' => r = currentVersion ∧ signed' = signed
  | _, signed, _, signed' => signed' = signed

/-- Every call but the signing one. -/
def StorageCall.Unsigned : StorageCall → Prop
  | .generateMac _ => False
  | _ => True

theorem StorageCall.WritesNone.unsigned {c : StorageCall} (h : c.WritesNone) : c.Unsigned := by
  cases c with
  | generateMac _ => exact h.elim
  | _ => trivial

theorem StorageCall.Loads.unsigned {c : StorageCall} (h : c.Loads) : c.Unsigned :=
  h.writesNone.unsigned

theorem StorageCall.Cleans.unsigned {c : StorageCall} (h : c.Cleans) : c.Unsigned := by
  rcases h with h | ⟨p, rfl⟩
  · exact h.unsigned
  · trivial

namespace FaceStorageManager
open FaceTemplateSerializer Program

section hostile
variable {v : UInt32} {signed : List Bytes} {α : Type} {u f : Int32}

theorem hostileEnv_unsigned {c : StorageCall} (hc : c.Unsigned) {r : c.Reply} {signed' : List Bytes}
    (h : hostileEnv v c signed r signed') : signed' = signed := by
  cases c with
  | generateMac _ => exact hc.elim
  | verifyMac _ _ => exact h.2
  | currentVersion => exact h.2
  | _ => exact h

/-- A program that signs nothing may return anything, and leaves what was signed. -/
theorem wp_unsigned {p : Program StorageI α} (hp : p.Uses StorageCall.Unsigned)
    {Q : α → List Bytes → Prop} (hQ : ∀ a, Q a signed) : p.wp (hostileEnv v) Q signed := by
  induction p with
  | done a => exact hQ a
  | call c next ih =>
      intro r signed' h
      rw [hostileEnv_unsigned hp.1 h]
      exact ih r (hp.2 r)

theorem wp_loads_hostile {p : Program StorageI α} (hp : p.Uses StorageCall.Loads)
    {Q : α → List Bytes → Prop} (hQ : ∀ a, Q a signed) : p.wp (hostileEnv v) Q signed :=
  wp_unsigned (hp.mono fun _ h => h.unsigned) hQ

/-- Whatever the parser accepts is a payload that was signed, parsed back. -/
theorem wp_deserialize_hostile {data : Bytes} {out : FaceTemplate} :
    (deserialize data out).wp (hostileEnv v) (fun r signed' => signed' = signed ∧
      ∀ x, outcome r = some x → ∃ d ∈ signed, ∃ mac : Bytes, mac.length = macSize ∧
        decodeFields v (d ++ mac) mac = some x) signed := by
  unfold deserialize
  split_ifs with hl
  · exact ⟨rfl, fun x hx => by cases hx⟩
  · rintro ok signed' ⟨hverified, rfl⟩
    dsimp only
    cases ok with
    | false => exact ⟨rfl, fun x hx => by cases hx⟩
    | true =>
        rintro version signed'' ⟨rfl, rfl⟩
        refine ⟨rfl, ?_⟩
        intro x hx
        rw [outcome_readFields] at hx
        refine ⟨_, hverified rfl, data.drop (data.length - macSize), ?_, ?_⟩
        · rw [List.length_drop]
          simp only [minSize, macSize] at hl ⊢
          omega
        · rwa [List.take_append_drop]

end hostile

/-- What was signed and what was serialized in a run. -/
structure AuthState where
  signed : List Bytes
  serialized : List FaceTemplate

/-- Everything signed is the payload of a serialized template. -/
def AuthState.Sound (g : AuthState) : Prop :=
  ∀ d ∈ g.signed, ∃ t ∈ g.serialized, d = payload t ∧ t.templateData.length < 2 ^ 32

/-- The template carries the user, the face and the current version, and the ids
and data of one that was serialized for this user and face. -/
def Authentic (v : UInt32) (serialized : List FaceTemplate) (u f : Int32)
    (x : FaceTemplate) : Prop :=
  x.userId = u ∧ x.faceId = f ∧ x.version = v ∧
    ∃ t ∈ serialized, t.userId = u ∧ t.faceId = f ∧ t.record = x.record

section accepted
variable {v : UInt32} {g : AuthState} {u f : Int32}

theorem authentic_of_decoded (hg : g.Sound) {d mac : Bytes} {x : FaceTemplate} (hd : d ∈ g.signed)
    (hm : mac.length = macSize) (hx : decodeFields v (d ++ mac) mac = some x) (hu : x.userId = u)
    (hf : x.faceId = f) : Authentic v g.serialized u f x := by
  obtain ⟨t, ht, rfl, hl⟩ := hg d hd
  have hv : t.version = v := version_of_decodeFields hx
  subst hv
  rw [decodeFields_payload t hm hl] at hx
  obtain rfl := Option.some.inj hx
  exact ⟨hu, hf, rfl, t, ht, hu, hf, rfl⟩

theorem wp_deserializeAndValidate_hostile (hg : g.Sound) {data : Bytes} {out : FaceTemplate} :
    (deserializeAndValidate u f data out).wp (hostileEnv v) (fun r signed => signed = g.signed ∧
      ∀ x, outcome r = some x → Authentic v g.serialized u f x) g.signed := by
  unfold deserializeAndValidate
  rw [wp_bind]
  refine wp_mono wp_deserialize_hostile ?_
  rintro ⟨ok, t⟩ signed ⟨rfl, hdec⟩
  cases ok with
  | false => exact ⟨rfl, fun x hx => by cases hx⟩
  | true =>
      refine ⟨rfl, ?_⟩
      intro x hx
      unfold outcome at hx
      split_ifs at hx with hid
      obtain rfl := Option.some.inj hx
      rw [Bool.and_eq_true, beq_iff_eq, beq_iff_eq] at hid
      obtain ⟨d, hd, mac, hm, hfields⟩ := hdec t rfl
      exact authentic_of_decoded hg hd hm hfields hid.1 hid.2

theorem wp_loadPlaintext_hostile (hg : g.Sound) {out : FaceTemplate} :
    (loadPlaintext u f out).wp (hostileEnv v) (fun r signed => signed = g.signed ∧
      ∀ x, outcome r = some x → Authentic v g.serialized u f x) g.signed := by
  unfold loadPlaintext
  rw [wp_bind]
  refine wp_loads_hostile (uses_getPlaintextFilePath u f) fun path => ?_
  rw [wp_bind]
  refine wp_loads_hostile (uses_readFile path) fun data => ?_
  split_ifs
  · exact ⟨rfl, fun x hx => by cases hx⟩
  · exact wp_deserializeAndValidate_hostile hg

theorem wp_loadTemplate_hostile (hg : g.Sound) {out : FaceTemplate} :
    (loadTemplate u f out).wp (hostileEnv v) (fun r signed => signed = g.signed ∧
      ∀ x, outcome r = some x → Authentic v g.serialized u f x) g.signed := by
  unfold loadTemplate
  rw [wp_bind]
  refine wp_loads_hostile (uses_getFilePath u f) fun path => ?_
  rw [wp_bind]
  refine wp_loads_hostile (uses_readFile path) fun data => ?_
  split_ifs
  · exact wp_loadPlaintext_hostile hg
  · rw [invoke_bind]
    rintro plain signed rfl
    beta_reduce
    split_ifs
    · exact wp_loadPlaintext_hostile hg
    · rw [wp_bind]
      refine wp_mono (wp_deserializeAndValidate_hostile hg) ?_
      rintro ⟨ok, t⟩ signed ⟨rfl, hauth⟩
      cases ok with
      | true => exact ⟨rfl, hauth⟩
      | false => exact wp_loadPlaintext_hostile hg

theorem wp_loadEntries_hostile (hg : g.Sound) {dir : Text} {names : List Text} {failed : Bool}
    {seen : List Int32} {templates : List FaceTemplate}
    (ht : ∀ x ∈ templates, Authentic v g.serialized u x.faceId x) :
    (loadEntries u dir names failed seen templates).wp (hostileEnv v) (fun ts signed =>
      signed = g.signed ∧ ∀ x ∈ ts, Authentic v g.serialized u x.faceId x) g.signed := by
  induction names generalizing failed seen templates with
  | nil => exact ⟨rfl, ht⟩
  | cons n rest ih =>
      unfold loadEntries
      dsimp only
      split_ifs
      · exact ⟨rfl, ht⟩
      · exact ih ht
      · rw [wp_bind]
        refine wp_mono (wp_loadTemplate_hostile hg) ?_
        rintro ⟨ok, t⟩ signed ⟨rfl, hauth⟩
        cases ok with
        | false =>
            rintro removed signed rfl
            exact ih ht
        | true =>
            refine ih ?_
            intro x hx
            rcases List.mem_append.mp hx with hx | hx
            · exact ht x hx
            · obtain rfl := List.mem_singleton.mp hx
              have hx' := hauth x rfl
              rwa [← hx'.2.1] at hx'
      · exact ih ht

theorem wp_loadAllTemplatesForUser_hostile (hg : g.Sound) :
    (loadAllTemplatesForUser u).wp (hostileEnv v) (fun ts signed => signed = g.signed ∧
      ∀ x ∈ ts, Authentic v g.serialized u x.faceId x) g.signed := by
  unfold loadAllTemplatesForUser
  rw [wp_bind]
  refine wp_loads_hostile (uses_getUserDirectory u) fun dir => ?_
  rintro names signed rfl
  cases names with
  | none => exact ⟨rfl, fun x hx => by cases hx⟩
  | some l => exact wp_loadEntries_hostile hg fun x hx => by cases hx

end accepted

theorem uses_writeAndRename (final stale : Path) (data : Bytes) :
    (writeAndRename final stale data).Uses StorageCall.Unsigned := by
  unfold writeAndRename
  rw [uses_invoke_bind]
  refine ⟨trivial, fun opened => ?_⟩
  split_ifs
  · trivial
  · rw [uses_invoke_bind]
    refine ⟨trivial, fun _ => ?_⟩
    rw [uses_invoke_bind]
    refine ⟨trivial, fun _ => ?_⟩
    rw [uses_invoke_bind]
    refine ⟨trivial, fun _ => ?_⟩
    rw [uses_invoke_bind]
    refine ⟨trivial, fun moved => ?_⟩
    split_ifs
    · exact ⟨trivial, fun _ => trivial⟩
    · exact uses_bind ((uses_removeIfPresent stale).mono fun _ h => h.unsigned) fun _ => trivial

theorem wp_saveTemplate_hostile {v : UInt32} {t : FaceTemplate} {signed : List Bytes} :
    (saveTemplate t).wp (hostileEnv v) (fun _ signed' => signed' = payload t :: signed) signed := by
  have hserialize : (serialize t).wp (hostileEnv v)
      (fun _ signed' => signed' = payload t :: signed) signed := by
    unfold serialize
    rw [invoke_bind]
    rintro mac signed' ⟨-, rfl⟩
    beta_reduce
    split_ifs
    · rfl
    · rfl
  unfold saveTemplate
  rw [wp_bind]
  refine wp_mono hserialize ?_
  rintro bytes signed' rfl
  split_ifs
  · rfl
  · refine wp_unsigned ?_ fun _ => rfl
    refine uses_bind ((uses_getFilePath _ _).mono fun _ h => h.unsigned) fun path => ?_
    refine uses_bind ((uses_getPlaintextFilePath _ _).mono fun _ h => h.unsigned) fun plain => ?_
    rw [uses_invoke_bind]
    refine ⟨trivial, fun data => ?_⟩
    split_ifs
    · refine uses_bind ((uses_getFilePath _ _).mono fun _ h => h.unsigned) fun stale => ?_
      exact uses_writeAndRename _ _ _
    · exact uses_writeAndRename _ _ _

inductive AuthLabel where
  | save (t : FaceTemplate)
  | delete (userId faceId : Int32)
  | removeUser (userId : Int32)
  | load (userId faceId : Int32) (answer : Option FaceTemplate)
  | loadAll (userId : Int32) (answer : List FaceTemplate)

/-- One operation of the store against the adversary. -/
def authStep (v : UInt32) : System AuthState AuthLabel
  | g, .save t, g' => ∃ ok, Run (hostileEnv v) (saveTemplate t) g.signed ok g'.signed ∧
      g'.serialized = t :: g.serialized
  | g, .delete u f, g' => ∃ ok, Run (hostileEnv v) (deleteTemplate u f) g.signed ok g'.signed ∧
      g'.serialized = g.serialized
  | g, .removeUser u, g' => ∃ ok, Run (hostileEnv v) (removeUser u) g.signed ok g'.signed ∧
      g'.serialized = g.serialized
  | g, .load u f answer, g' =>
      ∃ out r, Run (hostileEnv v) (loadTemplate u f out) g.signed r g'.signed ∧
        g'.serialized = g.serialized ∧ answer = outcome r
  | g, .loadAll u answer, g' => Run (hostileEnv v) (loadAllTemplatesForUser u) g.signed answer
      g'.signed ∧ g'.serialized = g.serialized

/-- Saved templates have a size that its field can hold. -/
def AuthLabel.Fits : AuthLabel → Prop
  | .save t => t.templateData.length < 2 ^ 32
  | _ => True

/-- Every template the operation gives out is authentic. -/
def AuthLabel.Genuine (v : UInt32) (serialized : List FaceTemplate) : AuthLabel → Prop
  | .load u f answer => ∀ x, answer = some x → Authentic v serialized u f x
  | .loadAll u answer => ∀ x ∈ answer, Authentic v serialized u x.faceId x
  | _ => True

theorem authStep_genuine {v : UInt32} {g g' : AuthState} {l : AuthLabel} (hg : g.Sound)
    (hl : l.Fits)
    (h : authStep v g l g') : l.Genuine v g.serialized ∧ g'.Sound := by
  have keep : g'.signed = g.signed → g'.serialized = g.serialized → g'.Sound := by
    intro hs ht d hd
    rw [hs] at hd
    rw [ht]
    exact hg d hd
  cases l with
  | save t =>
      obtain ⟨ok, hrun, hser⟩ := h
      refine ⟨trivial, ?_⟩
      intro d hd
      rw [hrun.wp wp_saveTemplate_hostile] at hd
      rw [hser]
      rcases List.mem_cons.mp hd with rfl | hd
      · exact ⟨t, List.mem_cons_self, rfl, hl⟩
      · obtain ⟨x, hx, hpay⟩ := hg d hd
        exact ⟨x, List.mem_cons_of_mem t hx, hpay⟩
  | delete u f =>
      obtain ⟨ok, hrun, hser⟩ := h
      exact ⟨trivial, keep (hrun.wp (Q := fun _ x => x = g.signed)
        (wp_unsigned ((uses_deleteTemplate u f).mono fun _ h => h.unsigned) fun _ => rfl)) hser⟩
  | removeUser u =>
      obtain ⟨ok, hrun, hser⟩ := h
      exact ⟨trivial, keep (hrun.wp (Q := fun _ x => x = g.signed)
        (wp_unsigned ((uses_removeUser u).mono fun _ h => h.unsigned) fun _ => rfl)) hser⟩
  | load u f answer =>
      obtain ⟨out, r, hrun, hser, rfl⟩ := h
      obtain ⟨hs, hauth⟩ := hrun.wp (wp_loadTemplate_hostile hg)
      exact ⟨hauth, keep hs hser⟩
  | loadAll u answer =>
      obtain ⟨hrun, hser⟩ := h
      obtain ⟨hs, hauth⟩ := hrun.wp (wp_loadAllTemplatesForUser_hostile hg)
      exact ⟨hauth, keep hs hser⟩

/-- Whatever the adversary does to the files, every template that a run gives out
was serialized earlier in it for the same user and face. -/
theorem loads_authentic (v : UInt32) {ls : List AuthLabel} {g : AuthState}
    (h : Runs (guarded (fun _ l => l.Fits) (authStep v)) ⟨[], []⟩ ls g) :
    Runs (fun g l g' => authStep v g l g' ∧ l.Genuine v g.serialized) ⟨[], []⟩ ls g := by
  refine (h.strengthen (P := AuthState.Sound) ?_ ?_).1
  · rintro g l g' hg ⟨hl, hstep⟩
    obtain ⟨hgen, hg'⟩ := authStep_genuine hg hl hstep
    exact ⟨⟨hstep, hgen⟩, hg'⟩
  · intro d hd
    cases hd

/-- The adversary replays the bytes of one template; every other call answers the least. -/
def answerReplay (t : FaceTemplate) : (c : StorageCall) → List Bytes → c.Reply × List Bytes
  | .existsDir _, g => (true, g)
  | .createDirectories _, g => ((), g)
  | .chmodDir _ _, g => ((), g)
  | .readFile _, g => (some (payload t ++ List.replicate 32 7), g)
  | .openTruncated _, g => (true, g)
  | .write _ _, g => (0, g)
  | .close _, g => (0, g)
  | .chmod _ _, g => ((), g)
  | .rename _ _, g => (true, g)
  | .unlink _, g => ((), g)
  | .exists _, g => (false, g)
  | .remove _, g => (true, g)
  | .openDirectory _, g => (none, g)
  | .removeAll _, g => ((), g)
  | .encrypt _ _, g => ([], g)
  | .decrypt _ _, g => ([], g)
  | .generateMac d, g => (List.replicate 32 7, d :: g)
  | .verifyMac d _, g => (decide (d ∈ g), g)
  | .currentVersion, g => (1, g)

theorem hostileEnv_answerReplay (t : FaceTemplate) (c : StorageCall) (g : List Bytes) :
    hostileEnv 1 c g (answerReplay t c g).1 (answerReplay t c g).2 := by
  cases c with
  | generateMac d => exact ⟨.inr (by simp [answerReplay]), rfl⟩
  | verifyMac d m => exact ⟨fun h => by simpa [answerReplay] using h, rfl⟩
  | currentVersion => exact ⟨rfl, rfl⟩
  | _ => rfl

/-- A template is saved and loaded from the replayed bytes. -/
theorem loads_authentic_replay : ∃ x g, Runs (fun g l g' => authStep 1 g l g' ∧
    l.Genuine 1 g.serialized) ⟨[], []⟩ [.save sampleTemplate, .load 0 2 (some x)] g := by
  have hsave := run_eval (hostileEnv_answerReplay sampleTemplate) (saveTemplate sampleTemplate) []
  have hload := run_eval (hostileEnv_answerReplay sampleTemplate) (loadTemplate 0 2 freshTemplate)
    ((saveTemplate sampleTemplate).eval (answerReplay sampleTemplate) []).2
  have hsome : (outcome ((loadTemplate 0 2 freshTemplate).eval (answerReplay sampleTemplate)
      ((saveTemplate sampleTemplate).eval (answerReplay sampleTemplate) []).2).1).isSome =
        true := by
    decide +kernel
  obtain ⟨x, hx⟩ := Option.isSome_iff_exists.mp hsome
  have hfits : AuthLabel.Fits (.save sampleTemplate) := show _ < 2 ^ 32 by decide
  exact ⟨x, ⟨_, [sampleTemplate]⟩, loads_authentic 1 (.cons (t := ⟨_, [sampleTemplate]⟩)
    ⟨hfits, _, hsave, rfl⟩ (.single ⟨trivial, freshTemplate, _, hload, rfl, hx.symm⟩))⟩

end FaceStorageManager
end FaceHal
