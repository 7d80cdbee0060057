import FaceHal.OperationLifecycle
import FaceHal.PayloadFraming

/-!
# Encryption under every reply

Keystore may answer anything here, also an operation in a response that failed. An
encryption that returns gives nothing or the frame of the nonce that was reported and
of what the operation gave out, whatever the two are. It returns unless the response
that opens the operation has no parameters: a response with parameters but without a
nonce, or with an empty one, is refused, and a nonce that is too long to be framed is
refused by the framing.
-/
namespace FaceHal
namespace CryptoClient
open Program

/-- The nonce of the operation that the record opens for encryption. -/
def Reported (tr : List (Event KeystoreI)) (nonce : Bytes) : Prop :=
  ∃ e ∈ tr, OpensEncryption e ∧ (reportedParameters e).bind nonceOf = some nonce

/-- The function returned nothing, or the nonce and the output in a frame. -/
def SafelyFramed (o : Option Bytes) (tr : List (Event KeystoreI)) : Prop :=
  ∃ p, o = some p ∧ (p = [] ∨
    ∃ nonce, Reported tr nonce ∧ parseStoragePayload p = some (nonce, tr.flatMap outputOf))

/-- Opens nothing and gives nothing out. -/
def Silent (e : Event KeystoreI) : Prop := ¬ OpensEncryption e ∧ outputOf e = []

theorem anyReplies_precedes (available : Bool) : Precedes (anyReplies available) Silent where
  answered c hc s := by
    cases c with
    | securityLevel => exact ⟨available, s, rfl⟩
    | createOperation _ _ => exact ⟨(.ok, ⟨none, none⟩), s, trivial⟩
    | update _ _ | finish _ => exact ⟨⟨.ok, none⟩, s, trivial⟩
    | abort _ => exact ⟨(), s, trivial⟩
    | generateKey _ _ => exact ⟨.ok, s, trivial⟩
    | absentDereference => exact hc.elim
  refused _ _ _ _ hno := ⟨fun hopens => hno hopens.2, rfl⟩
  level _ := ⟨id, rfl⟩
  generated _ _ _ := ⟨id, rfl⟩

section records
variable {before added tr : List (Event KeystoreI)} {e : Event KeystoreI} {h : ℕ} {o : Option Bytes}

theorem flatMap_outputOf_silent (hbefore : ∀ x ∈ before, Silent x) : before.flatMap outputOf = [] :=
  List.flatMap_eq_nil_iff.mpr fun x hx => (hbefore x hx).2

theorem Streamed.opens_none (hr : Streamed h added o) : ∀ x ∈ added, ¬ OpensEncryption x := by
  obtain ⟨earlier, last, rfl, hafter, -, -⟩ := hr.closing
  exact fun x hx hopens => hopens.obtains (hafter x hx).1

theorem forall_lacks_iff (hbefore : ∀ x ∈ before, Silent x)
    (hadded : ∀ x ∈ added, ¬ OpensEncryption x) :
    (∀ x ∈ before ++ [e] ++ added, ¬ LacksParameters x) ↔ ¬ LacksParameters e := by
  constructor
  · exact fun hall => hall e (by simp)
  · intro he x hx hlacks
    rcases List.mem_append.mp hx with hx | hx
    · rcases List.mem_append.mp hx with hx | hx
      · exact (hbefore x hx).1 hlacks.1
      · obtain rfl := List.mem_singleton.mp hx
        exact he hlacks
    · exact hadded x hx hlacks.1

theorem opensEncryption_of_opens (u : Int32) {r : Status × CreateOperationResponse}
    (hopens : opens r = true) :
    OpensEncryption ⟨.createOperation (getStorageKeyDescriptor u) encryptionParams, r⟩ :=
  ⟨rfl, hopens⟩

theorem Encrypted.safelyFramed_iff {u : Int32} (hr : Encrypted Silent u tr o) :
    SafelyFramed o tr ↔ ∀ x ∈ tr, ¬ LacksParameters x := by
  cases hr with
  | refused hbefore =>
      exact iff_of_true ⟨[], rfl, .inl rfl⟩ fun x hx hlacks => (hbefore x hx).1 hlacks.1
  | absent hbefore hopens hparams =>
      refine iff_of_false ?_ ?_
      · rintro ⟨p, hp, -⟩
        cases hp
      · exact fun hall => hall _ (by simp) ⟨opensEncryption_of_opens u hopens, hparams⟩
  | @unusable before r params h hbefore hopens hop hparams hnonce =>
      refine iff_of_true ⟨[], rfl, .inl rfl⟩ ((forall_lacks_iff hbefore ?_).mpr ?_)
      · intro x hx
        obtain rfl := List.mem_singleton.mp hx
        exact id
      · rintro ⟨-, hnone⟩
        cases hparams.symm.trans hnone
  | @streamed before added r params h nonce o hbefore hopens hop hparams hnonce hne hr =>
      refine iff_of_true ⟨_, rfl, ?_⟩ ((forall_lacks_iff hbefore hr.opens_none).mpr ?_)
      · cases o with
        | none => exact .inl rfl
        | some ciphertext =>
            by_cases hempty : serializeStoragePayload nonce ciphertext = []
            · exact .inl hempty
            · refine .inr ⟨nonce, ⟨_, ?_, opensEncryption_of_opens u hopens, ?_⟩, ?_⟩
              · simp
              · change r.2.parameters.bind nonceOf = some nonce
                rw [hparams, Option.bind_some, hnonce]
              · have hframed := parse_of_framable (serializeStoragePayload_ne_nil_iff.mp hempty)
                rw [Option.elim_some, hframed, List.flatMap_append, List.flatMap_append,
                  flatMap_outputOf_silent hbefore, ← hr.output.2]
                rfl
      · rintro ⟨-, hnone⟩
        cases hparams.symm.trans hnone

end records

/-- An encryption is safe exactly when no operation opens without parameters. -/
theorem encrypt_safelyFramed_iff (available : Bool) (userId : Int32) (data : Bytes)
    (o : Option Bytes) (t : Unit × List (Event KeystoreI))
    (h : Ends (traced (anyReplies available)) (encrypt userId data) ((), []) o t) :
    SafelyFramed o t.2 ↔ ∀ e ∈ t.2, ¬ LacksParameters e :=
  (h.ends ((anyReplies_precedes available).encrypt_ends userId data)).safelyFramed_iff

/-- A nonce of 33 bytes. -/
def oversizedRun : List (Event KeystoreI) :=
  [⟨.securityLevel, true⟩, openedWith (some [.nonce (List.replicate 33 7)]),
    ⟨.update 0 [1], ⟨.ok, some [8]⟩⟩, ⟨.finish 0, ⟨.ok, some [9]⟩⟩]

theorem ends_oversizedRun : Ends (traced (anyReplies true)) (encrypt 0 [1]) ((), [])
    (some []) ((), oversizedRun) := by
  refine ends_reply .securityLevel true rfl ?_
  refine ends_reply (.createOperation _ _) (.ok, ⟨some 0, some [.nonce (List.replicate 33 7)]⟩)
    trivial ?_
  refine ends_reply (.update 0 [1]) ⟨.ok, some [8]⟩ trivial ?_
  exact ends_reply (.finish 0) ⟨.ok, some [9]⟩ trivial (.done _ _)

theorem safelyFramed_oversizedRun : SafelyFramed (some []) oversizedRun ↔
    ∀ e ∈ oversizedRun, ¬ LacksParameters e :=
  encrypt_safelyFramed_iff true 0 [1] (some []) ((), oversizedRun) ends_oversizedRun

/-- Where the parameters are left out, the function reads through a null pointer. -/
theorem not_safelyFramed_encrypt : ¬ ∀ available userId data o (t : Unit × List (Event KeystoreI)),
    Ends (traced (anyReplies available)) (encrypt userId data) ((), []) o t →
      SafelyFramed o t.2 := by
  intro hsafe
  obtain ⟨p, hp, -⟩ := hsafe true 0 [1] none _ (ends_absentRun rfl trivial)
  cases hp

end CryptoClient
end FaceHal
