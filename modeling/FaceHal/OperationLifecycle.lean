import FaceHal.HandleLifecycle
import FaceHal.KeyGeneration
import FaceHal.ProgramEndings

/-!
# The life of a Keystore operation

Keystore answers as it likes, at every chunk and in both attempts. The chunk loop
closes its operation on each of its paths: by the finish that succeeds, or by the
abort after the call that failed. What is left are the calls between the creation
and the loop, and there `encrypt` reads the parameters of the response, which the
interface allows to be absent, before it looks whether they hold a nonce.
-/
namespace FaceHal

namespace KeystoreCall

/-- The operation that a call is addressed to. -/
def addresses : KeystoreCall → Option ℕ
  | .update h _ | .finish h | .abort h => some h
  | _ => none

/-- Keystore answers the call. -/
def Answered : KeystoreCall → Prop
  | .absentDereference => False
  | _ => True

end KeystoreCall

/-- Keystore may answer anything, but a creation that fails yields no operation. -/
def keystoreReplies (available : Bool) : Environment KeystoreI Unit
  | .createOperation _ _, _, r, _ => r.1.isOk = false → r.2.iOperation = none
  | c, s, r, t => anyReplies available c s r t

theorem keystoreReplies_answers (available : Bool) (c : KeystoreCall) (hc : c.Answered) (s : Unit) :
    ∃ r t, keystoreReplies available c s r t := by
  cases c with
  | securityLevel => exact ⟨available, (), rfl⟩
  | createOperation _ _ => exact ⟨(.ok, ⟨none, none⟩), (), fun _ => rfl⟩
  | update _ _ | finish _ => exact ⟨⟨.ok, none⟩, (), trivial⟩
  | abort _ => exact ⟨(), (), trivial⟩
  | generateKey _ _ => exact ⟨.ok, (), trivial⟩
  | absentDereference => exact hc.elim

namespace CryptoClient
open Program

/-- The operation that a response carries. -/
def obtains : Event KeystoreI → Option ℕ
  | ⟨.createOperation _ _, r⟩ => r.2.iOperation
  | _ => none

/-- A finish that succeeded, or an abort. -/
def closes : Event KeystoreI → Bool
  | ⟨.finish _, r⟩ => r.status.isOk
  | ⟨.abort _, _⟩ => true
  | _ => false

def operationProtocol : HandleProtocol (Event KeystoreI) ℕ where
  obtains := obtains
  addresses e := e.call.addresses
  closes := closes

/-- Carries no operation and is addressed to none. -/
def Prepares (e : Event KeystoreI) : Prop := obtains e = none ∧ e.call.addresses = none

/-- An update that succeeded. -/
def Updates (h : ℕ) : Event KeystoreI → Prop
  | ⟨.update k _, r⟩ => k = h ∧ r.status.isOk = true
  | _ => False

/-- An update or a finish that failed. -/
def Breaks : Event KeystoreI → Prop
  | ⟨.update _ _, r⟩ | ⟨.finish _, r⟩ => r.status.isOk = false
  | _ => False

/-- What an operation gave out. -/
def outputOf : Event KeystoreI → Bytes
  | ⟨.update _ _, r⟩ | ⟨.finish _, r⟩ => r.output.getD []
  | _ => []

/-- A response that carries an operation for encryption. -/
def OpensEncryption : Event KeystoreI → Prop
  | ⟨.createOperation _ params, r⟩ => purposeOf params = some .encrypt ∧ opens r = true
  | _ => False

/-- The parameters of a response. -/
def reportedParameters : Event KeystoreI → Option (List KeyParameter)
  | ⟨.createOperation _ _, r⟩ => r.2.parameters
  | _ => none

/-- An operation for encryption came without a nonce that can be used. -/
def LacksNonce (e : Event KeystoreI) : Prop :=
  OpensEncryption e ∧ ((reportedParameters e).bind nonceOf).getD [] = []

/-- An operation for encryption came without parameters. -/
def LacksParameters (e : Event KeystoreI) : Prop :=
  OpensEncryption e ∧ reportedParameters e = none

/-- A step of the function failed: no attempt gave an operation, the nonce is missing,
or an update or the finish failed. -/
def StepFails (tr : List (Event KeystoreI)) : Prop :=
  (∀ e ∈ tr, obtains e = none) ∨ ∃ e ∈ tr, LacksNonce e ∨ Breaks e

theorem Updates.spec {h : ℕ} {e : Event KeystoreI} (he : Updates h e) :
    obtains e = none ∧ e.call.addresses = some h ∧ closes e = false ∧ ¬ Breaks e ∧
      ¬ OpensEncryption e := by
  obtain ⟨c, r⟩ := e
  cases c with
  | update k data =>
      obtain ⟨rfl, hok⟩ := he
      exact ⟨rfl, rfl, rfl, by simp [Breaks, hok], id⟩
  | _ => exact he.elim

/-- What the chunk loop and the finish leave in the record. -/
inductive Streamed (h : ℕ) : List (Event KeystoreI) → Option Bytes → Prop
  | finished {updates : List (Event KeystoreI)} {reply : StreamReply} :
      (∀ e ∈ updates, Updates h e) → reply.status.isOk = true →
      Streamed h (updates ++ [⟨.finish h, reply⟩])
        (some (updates.flatMap outputOf ++ reply.output.getD []))
  | aborted {updates : List (Event KeystoreI)} {e : Event KeystoreI} :
      (∀ e ∈ updates, Updates h e) → Breaks e → e.call.addresses = some h →
      Streamed h (updates ++ [e] ++ [⟨.abort h, ()⟩]) none

section loop
variable {σ : Type} {E : Environment KeystoreI σ} {s : σ × List (Event KeystoreI)}

theorem wp_feed_streamed (h : ℕ) (cs : List Bytes) (out : Bytes) :
    (feed h cs out).wp (traced E) (fun r t => ∃ added, t.2 = s.2 ++ added ∧
      match r with
      | some out' => (∀ e ∈ added, Updates h e) ∧ out' = out ++ added.flatMap outputOf
      | none => Streamed h added none) s := by
  induction cs generalizing s out with
  | nil => exact ⟨[], by simp, by simp⟩
  | cons chunk rest ih =>
      unfold feed
      rw [wp_request]
      rintro reply t ⟨-, ht⟩
      split_ifs with hfailed
      · rw [wp_request]
        rintro _ u ⟨-, hu⟩
        refine ⟨[⟨.update h chunk, reply⟩, ⟨.abort h, ()⟩], ?_, ?_⟩
        · rw [hu, ht, List.append_assoc]
          rfl
        · exact @Streamed.aborted h [] ⟨.update h chunk, reply⟩ (by simp)
            (by simpa [Breaks] using hfailed) rfl
      · refine wp_mono (ih _) ?_
        rintro r u ⟨added, hu, hr⟩
        have hok : Updates h ⟨.update h chunk, reply⟩ := ⟨rfl, by simpa using hfailed⟩
        refine ⟨⟨.update h chunk, reply⟩ :: added, ?_, ?_⟩
        · rw [hu, ht, List.append_assoc]
          rfl
        · cases r with
          | some out' =>
              obtain ⟨hadded, rfl⟩ := hr
              refine ⟨?_, ?_⟩
              · intro e he
                rcases List.mem_cons.mp he with rfl | he
                · exact hok
                · exact hadded e he
              · rw [List.flatMap_cons, ← List.append_assoc]
                rfl
          | none =>
              cases hr with
              | @aborted updates e hupdates hbreaks haddress =>
                  refine @Streamed.aborted h (_ :: updates) e ?_ hbreaks haddress
                  intro x hx
                  rcases List.mem_cons.mp hx with rfl | hx
                  · exact hok
                  · exact hupdates x hx

theorem wp_stream_streamed (h : ℕ) (data : Bytes) :
    (stream h data).wp (traced E)
      (fun r t => ∃ added, t.2 = s.2 ++ added ∧ Streamed h added r) s := by
  unfold stream
  rw [wp_bind]
  refine wp_mono (wp_feed_streamed h _ []) ?_
  rintro r t ⟨added, ht, hr⟩
  cases r with
  | none => exact ⟨added, ht, hr⟩
  | some out =>
      obtain ⟨hadded, rfl⟩ := hr
      dsimp only
      rw [wp_request]
      rintro reply u ⟨-, hu⟩
      split_ifs with hfailed
      · rw [wp_request]
        rintro _ v ⟨-, hv⟩
        refine ⟨added ++ [⟨.finish h, reply⟩] ++ [⟨.abort h, ()⟩], ?_, ?_⟩
        · rw [hv, hu, ht, List.append_assoc, List.append_assoc, List.append_assoc]
        · exact .aborted hadded (by simpa [Breaks] using hfailed) rfl
      · refine ⟨added ++ [⟨.finish h, reply⟩], ?_, ?_⟩
        · rw [hu, ht, List.append_assoc]
        · exact .finished hadded (by simpa using hfailed)

end loop

section streamed
variable {h : ℕ} {added : List (Event KeystoreI)} {r : Option Bytes} {e : Event KeystoreI}

theorem Breaks.spec (he : Breaks e) :
    obtains e = none ∧ closes e = false ∧ e.call.addresses ≠ none := by
  obtain ⟨c, r⟩ := e
  cases c with
  | update k _ => exact ⟨rfl, rfl, Option.some_ne_none k⟩
  | finish k => exact ⟨rfl, he, Option.some_ne_none k⟩
  | _ => exact he.elim

theorem Streamed.closing (hr : Streamed h added r) : ∃ earlier last, added = earlier ++ [last] ∧
    (∀ x ∈ earlier ++ [last], obtains x = none ∧ x.call.addresses = some h) ∧
    (∀ x ∈ earlier, closes x = false) ∧ closes last = true := by
  cases hr with
  | @finished updates reply hupdates hok =>
      refine ⟨updates, ⟨.finish h, reply⟩, rfl, ?_, ?_, hok⟩
      · intro x hx
        rcases List.mem_append.mp hx with hx | hx
        · exact ⟨(hupdates x hx).spec.1, (hupdates x hx).spec.2.1⟩
        · obtain rfl := List.mem_singleton.mp hx
          exact ⟨rfl, rfl⟩
      · exact fun x hx => (hupdates x hx).spec.2.2.1
  | @aborted updates e hupdates hbreaks haddress =>
      refine ⟨updates ++ [e], ⟨.abort h, ()⟩, rfl, ?_, ?_, rfl⟩
      · intro x hx
        rcases List.mem_append.mp hx with hx | hx
        · rcases List.mem_append.mp hx with hx | hx
          · exact ⟨(hupdates x hx).spec.1, (hupdates x hx).spec.2.1⟩
          · obtain rfl := List.mem_singleton.mp hx
            exact ⟨hbreaks.spec.1, haddress⟩
        · obtain rfl := List.mem_singleton.mp hx
          exact ⟨rfl, rfl⟩
      · intro x hx
        rcases List.mem_append.mp hx with hx | hx
        · exact (hupdates x hx).spec.2.2.1
        · obtain rfl := List.mem_singleton.mp hx
          exact hbreaks.spec.2.1

/-- A loop that ends found no call that failed, and gives the output of all. -/
theorem Streamed.output {out : Bytes} (hr : Streamed h added (some out)) :
    (∀ x ∈ added, ¬ Breaks x) ∧ out = added.flatMap outputOf := by
  cases hr with
  | @finished updates reply hupdates hok =>
      refine ⟨?_, ?_⟩
      · intro x hx
        rcases List.mem_append.mp hx with hx | hx
        · exact (hupdates x hx).spec.2.2.2.1
        · obtain rfl := List.mem_singleton.mp hx
          simp [Breaks, hok]
      · rw [List.flatMap_append, List.flatMap_singleton]
        rfl

end streamed

theorem operation_of_opens {r : Status × CreateOperationResponse} (h : opens r = true) :
    ∃ k, r.2.iOperation = some k := by
  rw [opens, Bool.and_eq_true] at h
  exact Option.isSome_iff_exists.mp h.2

/-- An environment that answers every call, and a predicate that holds of the events
that can precede an operation. -/
structure Precedes (E : Environment KeystoreI Unit) (Early : Event KeystoreI → Prop) : Prop where
  answered : ∀ c : KeystoreCall, c.Answered → ∀ s, ∃ r t, E c s r t
  refused : ∀ key params r, E (.createOperation key params) () r () → ¬ opens r = true →
    Early ⟨.createOperation key params, r⟩
  level : ∀ r, Early ⟨.securityLevel, r⟩
  generated : ∀ key params r, Early ⟨.generateKey key params, r⟩

/-- What obtaining an operation leaves in the record: events that precede it, and then
the response that carries it. -/
def Created (Early : Event KeystoreI → Prop) (key : KeyDescriptor) (params : List KeyParameter)
    (added : List (Event KeystoreI)) : Option CreateOperationResponse → Prop
  | none => ∀ x ∈ added, Early x
  | some result => ∃ before status,
      added = before ++ [⟨.createOperation key params, (status, result)⟩] ∧
      (∀ x ∈ before, Early x) ∧ opens (status, result) = true

section create
variable {E : Environment KeystoreI Unit} {Early : Event KeystoreI → Prop}
  {s t : Unit × List (Event KeystoreI)}

theorem Precedes.uses_generateKey (hE : Precedes E Early) (key : KeyDescriptor)
    (params : List KeyParameter) : (generateKey key params).Uses fun c => ∀ r, Early ⟨c, r⟩ :=
  CryptoClient.uses_generateKey hE.level (hE.generated key params)

theorem Precedes.traced_answers (hE : Precedes E Early) {c : KeystoreCall} (hc : c.Answered)
    (s : Unit × List (Event KeystoreI)) : ∃ r t, traced E c s r t := by
  obtain ⟨r, u, hr⟩ := hE.answered c hc s.1
  exact ⟨r, (u, s.2 ++ [⟨c, r⟩]), hr, rfl⟩

theorem Precedes.ends_request (hE : Precedes E Early) {c : KeystoreCall} (hc : c.Answered)
    {α : Type} {f : c.Reply → Program KeystoreI α}
    {Q : Option α → Unit × List (Event KeystoreI) → Prop}
    (h : ∀ r t, traced E c s r t → (f r).ends (traced E) Q t) :
    (request c >>= f).ends (traced E) Q s := by
  refine ⟨h, fun hno => ?_⟩
  obtain ⟨r, t, hr⟩ := hE.traced_answers hc s
  exact absurd hr (hno r t)

theorem Precedes.wp_createOrGenerate (hE : Precedes E Early) {key : KeyDescriptor}
    {params : List KeyParameter} {generate : Program KeystoreI Bool}
    (hgenerate : generate.Uses fun c => ∀ r, Early ⟨c, r⟩) :
    (createOrGenerate key params generate).wp (traced E)
      (fun r t => ∃ added, t.2 = s.2 ++ added ∧ Created Early key params added r) s := by
  unfold createOrGenerate
  rw [wp_request]
  rintro ⟨status, result⟩ t ⟨hreply, ht⟩
  dsimp only
  split_ifs with hopens hmissing
  · exact ⟨_, ht, [], status, rfl, by simp, hopens⟩
  · refine ⟨_, ht, ?_⟩
    intro x hx
    obtain rfl := List.mem_singleton.mp hx
    exact hE.refused key params _ hreply hopens
  · have hfirst := hE.refused key params _ hreply hopens
    rw [wp_bind]
    refine wp_iff_run.mpr ?_
    intro generated u hrun
    obtain ⟨tr, hu, htr⟩ := hrun.events hgenerate
    have hearly : ∀ x ∈ ⟨.createOperation key params, (status, result)⟩ :: tr, Early x := by
      intro x hx
      rcases List.mem_cons.mp hx with rfl | hx
      · exact hfirst
      · exact htr x hx x.reply
    rw [ht, List.append_assoc] at hu
    split_ifs
    · exact ⟨_, hu, hearly⟩
    · rw [wp_request]
      rintro ⟨status', result'⟩ v ⟨hreply', hv⟩
      rw [hu, List.append_assoc] at hv
      dsimp only
      split_ifs with hno
      · refine ⟨_, hv, ?_⟩
        intro x hx
        rcases List.mem_append.mp hx with hx | hx
        · exact hearly x hx
        · obtain rfl := List.mem_singleton.mp hx
          exact hE.refused key params _ hreply' (by simpa using hno)
      · exact ⟨_, hv, _, status', rfl, hearly, by simpa using hno⟩

end create

def encryptionParams : List KeyParameter :=
  [.purpose .encrypt, .blockModeGcm, .paddingNone, .macLength 128]

/-- The record of an encryption for the user and how it ends. -/
inductive Encrypted (Early : Event KeystoreI → Prop) (userId : Int32) :
    List (Event KeystoreI) → Option Bytes → Prop
  | refused {before : List (Event KeystoreI)} : (∀ x ∈ before, Early x) →
      Encrypted Early userId before (some [])
  | absent {before : List (Event KeystoreI)} {r : Status × CreateOperationResponse} :
      (∀ x ∈ before, Early x) → opens r = true → r.2.parameters = none →
      Encrypted Early userId
        (before ++ [⟨.createOperation (getStorageKeyDescriptor userId) encryptionParams, r⟩]) none
  | unusable {before : List (Event KeystoreI)} {r : Status × CreateOperationResponse}
      {params : List KeyParameter} {h : ℕ} :
      (∀ x ∈ before, Early x) → opens r = true → r.2.iOperation = some h →
      r.2.parameters = some params → (nonceOf params).getD [] = [] →
      Encrypted Early userId
        (before ++ [⟨.createOperation (getStorageKeyDescriptor userId) encryptionParams, r⟩] ++
          [⟨.abort h, ()⟩]) (some [])
  | streamed {before added : List (Event KeystoreI)} {r : Status × CreateOperationResponse}
      {params : List KeyParameter} {h : ℕ} {nonce : Bytes} {o : Option Bytes} :
      (∀ x ∈ before, Early x) → opens r = true → r.2.iOperation = some h →
      r.2.parameters = some params → nonceOf params = some nonce → nonce ≠ [] →
      Streamed h added o →
      Encrypted Early userId
        (before ++ [⟨.createOperation (getStorageKeyDescriptor userId) encryptionParams, r⟩] ++
          added) (some (o.elim [] fun ciphertext => serializeStoragePayload nonce ciphertext))

theorem Precedes.encrypt_ends {E : Environment KeystoreI Unit} {Early : Event KeystoreI → Prop}
    (hE : Precedes E Early) (userId : Int32) (data : Bytes) :
    (encrypt userId data).ends (traced E) (fun o t => Encrypted Early userId t.2 o) ((), []) := by
  unfold encrypt
  refine hE.ends_request (c := .securityLevel) trivial ?_
  rintro found t ⟨-, ht⟩
  rw [List.nil_append] at ht
  have hlevel : ∀ x ∈ t.2, Early x := by
    intro x hx
    rw [ht] at hx
    obtain rfl := List.mem_singleton.mp hx
    exact hE.level found
  split_ifs
  · exact .refused hlevel
  · exact .refused hlevel
  · rw [ends_bind]
    refine ends_of_wp (P := KeystoreCall.Answered) (fun c hc x => hE.traced_answers hc x)
      (uses_createOrGenerate trivial (CryptoClient.uses_generateKey trivial trivial)) ?_
    refine wp_mono (hE.wp_createOrGenerate (hE.uses_generateKey _ _)) ?_
    rintro result x ⟨added, hx, hcreated⟩
    cases result with
    | none =>
        change Encrypted Early userId x.2 (some [])
        rw [hx]
        exact .refused (List.forall_mem_append.mpr ⟨hlevel, hcreated⟩)
    | some result =>
        obtain ⟨before, status, rfl, hbefore, hopens⟩ := hcreated
        have hearly := List.forall_mem_append.mpr ⟨hlevel, hbefore⟩
        obtain ⟨h, hop⟩ := operation_of_opens hopens
        rw [← List.append_assoc] at hx
        change x.2 = t.2 ++ before ++ [⟨.createOperation (getStorageKeyDescriptor userId)
          encryptionParams, (status, result)⟩] at hx
        change (getNonceFromResponse result >>= _).ends _ _ _
        rw [hop, Option.getD_some, getNonceFromResponse]
        cases hparams : result.parameters with
        | none =>
            refine ⟨fun r => r.elim, fun _ => ?_⟩
            change Encrypted Early userId x.2 none
            rw [hx]
            exact .absent hearly hopens hparams
        | some params =>
            dsimp only
            rw [pure_eq, done_bind]
            match hnonce : nonceOf params with
            | none | some [] =>
                refine hE.ends_request (c := .abort h) trivial ?_
                rintro r y ⟨-, hy⟩
                change Encrypted Early userId y.2 (some [])
                rw [hy, hx]
                exact .unusable hearly hopens hop hparams (by rw [hnonce]; rfl)
            | some (b :: bs) =>
                refine ends_of_wp (P := KeystoreCall.Answered)
                  (fun c hc x => hE.traced_answers hc x)
                  (uses_bind (uses_stream (fun _ _ => trivial) (fun _ => trivial)
                    (fun _ => trivial) h data) ?_) ?_
                · intro r
                  cases r <;> trivial
                · rw [wp_bind]
                  refine wp_mono (wp_stream_streamed h data) ?_
                  rintro r y ⟨added, hy, hr⟩
                  rw [hx] at hy
                  have hrecord : Encrypted Early userId _ _ :=
                    .streamed hearly hopens hop hparams hnonce (List.cons_ne_nil b bs) hr
                  rw [← hy] at hrecord
                  cases r <;> exact hrecord

/-- The functions that obtain an operation. -/
inductive CryptoOperation where
  | encrypt (userId : Int32) (data : Bytes)
  | decrypt (userId : Int32) (encryptedPayload : Bytes)
  | signWithHmacKey (data : Bytes)

def CryptoOperation.call : CryptoOperation → Program KeystoreI Bytes
  | .encrypt userId data => CryptoClient.encrypt userId data
  | .decrypt userId encryptedPayload => CryptoClient.decrypt userId encryptedPayload
  | .signWithHmacKey data => CryptoClient.signWithHmacKey data

/-- The function returned, it closed its operation once and as the last thing it did with
it, and it returned nothing if a step failed. -/
def InOrder (o : Option Bytes) (tr : List (Event KeystoreI)) : Prop :=
  operationProtocol.ClosedOnce tr ∧ ∃ out, o = some out ∧ (StepFails tr → out = [])

/-- The function went through in order, or stopped at parameters that are absent. -/
def Settles (o : Option Bytes) (tr : List (Event KeystoreI)) : Prop :=
  InOrder o tr ∧ (∀ e ∈ tr, ¬ LacksParameters e) ∨ o = none ∧ ∃ e ∈ tr, LacksParameters e

theorem OpensEncryption.obtains {e : Event KeystoreI} (he : OpensEncryption e) :
    obtains e ≠ none := by
  obtain ⟨c, r⟩ := e
  cases c with
  | createOperation _ _ =>
      obtain ⟨h, hop⟩ := operation_of_opens he.2
      exact Option.ne_none_iff_exists'.mpr ⟨h, hop⟩
  | _ => exact he.elim

section settles
variable {tr before : List (Event KeystoreI)} {e : Event KeystoreI} {h : ℕ} {out : Bytes}

theorem settles_prepared (htr : ∀ x ∈ tr, Prepares x) : Settles (some []) tr := by
  refine .inl ⟨⟨HandleProtocol.closedOnce_of_none fun x hx => (htr x hx).1, [], rfl,
    fun _ => rfl⟩, ?_⟩
  intro x hx hlacks
  exact hlacks.1.obtains (htr x hx).1

theorem settles_opened (earlier : List (Event KeystoreI)) {last : Event KeystoreI}
    (hbefore : ∀ x ∈ before, Prepares x) (he : obtains e = some h) (hparams : ¬ LacksParameters e)
    (hafter : ∀ x ∈ earlier ++ [last], obtains x = none ∧ x.call.addresses = some h)
    (hopen : ∀ x ∈ earlier, closes x = false) (hlast : closes last = true)
    (hout : out ≠ [] → ¬ LacksNonce e ∧ ∀ x ∈ earlier ++ [last], ¬ Breaks x) :
    Settles (some out) (before ++ e :: (earlier ++ [last])) := by
  have hothers : ∀ x ∈ before ++ e :: (earlier ++ [last]), x = e ∨ obtains x = none := by
    intro x hx
    rcases List.mem_append.mp hx with hx | hx
    · exact .inr (hbefore x hx).1
    · rcases List.mem_cons.mp hx with rfl | hx
      · exact .inl rfl
      · exact .inr (hafter x hx).1
  refine .inl ⟨⟨HandleProtocol.closedOnce_of_only (fun x hx => (hbefore x hx).1) he hafter hopen
    hlast, out, rfl, ?_⟩, ?_⟩
  · intro hfails
    by_contra hne
    obtain ⟨hnonce, hfine⟩ := hout hne
    rcases hfails with hnone | ⟨x, hx, hlacks | hbreaks⟩
    · have hobtained := hnone e (by simp)
      rw [he] at hobtained
      cases hobtained
    · rcases hothers x hx with rfl | hnone
      · exact hnonce hlacks
      · exact hlacks.1.obtains hnone
    · rcases List.mem_append.mp hx with hx | hx
      · exact hbreaks.spec.2.2 (hbefore x hx).2
      · rcases List.mem_cons.mp hx with rfl | hx
        · rw [hbreaks.spec.1] at he
          cases he
        · exact hfine x hx hbreaks
  · intro x hx hlacks
    rcases hothers x hx with rfl | hnone
    · exact hparams hlacks
    · exact hlacks.1.obtains hnone

theorem settles_streamed {added : List (Event KeystoreI)} {r : Option Bytes}
    (hbefore : ∀ x ∈ before, Prepares x) (he : obtains e = some h)
    (hlacks : ¬ LacksNonce e) (hr : Streamed h added r) (hnone : r = none → out = []) :
    Settles (some out) (before ++ e :: added) := by
  obtain ⟨earlier, last, rfl, hafter, hopen, hlast⟩ := hr.closing
  refine settles_opened earlier hbefore he ?_ hafter hopen hlast ?_
  · rintro ⟨hopens, hparams⟩
    exact hlacks ⟨hopens, by rw [hparams]; rfl⟩
  · intro hne
    refine ⟨hlacks, ?_⟩
    cases r with
    | none => exact absurd (hnone rfl) hne
    | some _ => exact hr.output.1

end settles

section functions
variable {available : Bool} {s t : Unit × List (Event KeystoreI)}

theorem prepares_of_not_opens {key : KeyDescriptor} {params : List KeyParameter}
    {r : Status × CreateOperationResponse} (h : keystoreReplies available
      (.createOperation key params) () r ()) (hno : ¬ opens r = true) :
    Prepares ⟨.createOperation key params, r⟩ := by
  refine ⟨?_, rfl⟩
  cases hok : r.1.isOk with
  | false => exact h hok
  | true => simpa [opens, hok, obtains] using hno

theorem keystoreReplies_precedes (available : Bool) :
    Precedes (keystoreReplies available) Prepares where
  answered := keystoreReplies_answers available
  refused _ _ _ h hno := prepares_of_not_opens h hno
  level _ := ⟨rfl, rfl⟩
  generated _ _ _ := ⟨rfl, rfl⟩

/-- The chunk loop after the event that obtained the operation. -/
theorem wp_stream_settles {before : List (Event KeystoreI)} {e : Event KeystoreI} {h : ℕ}
    (ht : t.2 = before ++ [e]) (hbefore : ∀ x ∈ before, Prepares x) (he : obtains e = some h)
    (hlacks : ¬ LacksNonce e) (data : Bytes) :
    (stream h data).wp (traced (keystoreReplies available))
      (fun r u => ∀ out, (r = none → out = []) → Settles (some out) u.2) t := by
  refine wp_mono (wp_stream_streamed h data) ?_
  rintro r u ⟨added, hu, hr⟩ out hout
  rw [hu, ht, List.append_assoc]
  exact settles_streamed hbefore he hlacks hr hout

theorem prepares_level (found : Bool) :
    ∀ x ∈ [(⟨.securityLevel, found⟩ : Event KeystoreI)], Prepares x := by
  intro x hx
  obtain rfl := List.mem_singleton.mp hx
  exact ⟨rfl, rfl⟩

theorem signWithHmacKey_settles (data : Bytes) : (signWithHmacKey data).wp
    (traced (keystoreReplies available)) (fun out u => Settles (some out) u.2) ((), []) := by
  unfold signWithHmacKey
  rw [wp_request]
  rintro found t ⟨-, ht⟩
  have hlevel := prepares_level found
  rw [List.nil_append] at ht
  split_ifs
  · exact settles_prepared (ht ▸ hlevel)
  · rw [wp_bind]
    have hE := keystoreReplies_precedes available
    refine wp_mono (hE.wp_createOrGenerate (hE.uses_generateKey _ _)) ?_
    rintro result u ⟨added, hu, hcreated⟩
    rw [ht] at hu
    cases result with
    | none => exact settles_prepared (hu ▸ List.forall_mem_append.mpr ⟨hlevel, hcreated⟩)
    | some result =>
        obtain ⟨before, status, rfl, hbefore, hopens⟩ := hcreated
        obtain ⟨h, hop⟩ := operation_of_opens hopens
        rw [← List.append_assoc] at hu
        dsimp only
        rw [hop, Option.getD_some, wp_bind]
        refine wp_mono (wp_stream_settles hu (List.forall_mem_append.mpr ⟨hlevel, hbefore⟩) hop
          ?_ data) ?_
        · exact fun hlacks => absurd hlacks.1.1 (by decide)
        · rintro r v hsettles
          exact hsettles _ fun hr => by rw [hr]; rfl

theorem decrypt_settles (u : Int32) (payload : Bytes) : (decrypt u payload).wp
    (traced (keystoreReplies available)) (fun out v => Settles (some out) v.2) ((), []) := by
  unfold decrypt
  rw [wp_request]
  rintro found t ⟨-, ht⟩
  have hlevel := prepares_level found
  rw [List.nil_append] at ht
  split_ifs
  · exact settles_prepared (ht ▸ hlevel)
  · cases parseStoragePayload payload with
    | none => exact settles_prepared (ht ▸ hlevel)
    | some parts =>
        dsimp only
        rw [wp_request]
        rintro ⟨status, result⟩ v ⟨hreply, hv⟩
        rw [ht] at hv
        dsimp only
        split_ifs with hno
        · refine settles_prepared (hv ▸ List.forall_mem_append.mpr ⟨hlevel, ?_⟩)
          intro x hx
          obtain rfl := List.mem_singleton.mp hx
          exact prepares_of_not_opens hreply (by simpa using hno)
        · obtain ⟨h, hop⟩ := operation_of_opens (r := (status, result)) (by simpa using hno)
          rw [hop, Option.getD_some, wp_bind]
          refine wp_mono (wp_stream_settles hv hlevel hop ?_ parts.2) ?_
          · exact fun hlacks => absurd hlacks.1.1 (by simp [purposeOf])
          · rintro r w hsettles
            exact hsettles _ fun hr => by rw [hr]; rfl

/-- An encryption goes through in order unless it stops at absent parameters. -/
theorem Encrypted.settles {u : Int32} {tr : List (Event KeystoreI)} {o : Option Bytes}
    (h : Encrypted Prepares u tr o) : Settles o tr := by
  cases h with
  | refused hbefore => exact settles_prepared hbefore
  | absent hbefore hopens hparams =>
      refine .inr ⟨rfl, _, List.mem_append_right _ (List.mem_singleton_self _), ⟨?_, hopens⟩,
        hparams⟩
      rfl
  | @unusable before r params h hbefore hopens hop hparams hnonce =>
      rw [List.append_assoc]
      refine settles_opened [] hbefore hop ?_ ?_ (by simp) rfl ?_
      · rintro ⟨-, hnone⟩
        cases hparams.symm.trans hnone
      · intro x hx
        obtain rfl := List.mem_singleton.mp hx
        exact ⟨rfl, rfl⟩
      · exact fun hne => absurd rfl hne
  | @streamed before added r params h nonce o hbefore hopens hop hparams hnonce hne hr =>
      rw [List.append_assoc]
      refine settles_streamed hbefore hop ?_ hr fun ho => by rw [ho]; rfl
      rintro ⟨-, hnone⟩
      change (r.2.parameters.bind nonceOf).getD [] = [] at hnone
      rw [hparams, Option.bind_some, hnonce] at hnone
      exact hne hnone

theorem uses_signWithHmacKey (data : Bytes) :
    (signWithHmacKey data).Uses KeystoreCall.Answered := by
  unfold signWithHmacKey
  rw [uses_request]
  refine ⟨trivial, fun found => ?_⟩
  split_ifs
  · trivial
  · refine uses_bind (uses_createOrGenerate trivial (uses_generateKey trivial trivial)) ?_
    intro result
    cases result with
    | none => trivial
    | some result =>
        exact uses_bind (uses_stream (fun _ _ => trivial) (fun _ => trivial) (fun _ => trivial) _ _)
          fun _ => trivial

theorem uses_decrypt_answered (u : Int32) (payload : Bytes) :
    (decrypt u payload).Uses KeystoreCall.Answered := by
  unfold decrypt
  rw [uses_request]
  refine ⟨trivial, fun found => ?_⟩
  split_ifs
  · trivial
  · cases parseStoragePayload payload with
    | none => trivial
    | some parts =>
        dsimp only
        rw [uses_request]
        refine ⟨trivial, ?_⟩
        rintro ⟨status, result⟩
        dsimp only
        split_ifs
        · trivial
        · exact uses_bind (uses_stream (fun _ _ => trivial) (fun _ => trivial) (fun _ => trivial)
            _ _) fun _ => trivial

theorem settles (available : Bool) (c : CryptoOperation) : c.call.ends
    (traced (keystoreReplies available)) (fun o v => Settles o v.2) ((), []) := by
  have hE := keystoreReplies_precedes available
  cases c with
  | encrypt u data => exact ends_mono (hE.encrypt_ends u data) fun _ _ h => h.settles
  | decrypt u payload =>
      exact ends_of_wp (P := KeystoreCall.Answered) (fun c hc x => hE.traced_answers hc x)
        (uses_decrypt_answered u payload) (decrypt_settles u payload)
  | signWithHmacKey data =>
      exact ends_of_wp (P := KeystoreCall.Answered) (fun c hc x => hE.traced_answers hc x)
        (uses_signWithHmacKey data) (signWithHmacKey_settles data)

/-- Each of the three goes through in order exactly when no operation for encryption
comes without parameters. -/
theorem inOrder_iff (available : Bool) (c : CryptoOperation) (o : Option Bytes)
    (t : Unit × List (Event KeystoreI))
    (h : Ends (traced (keystoreReplies available)) c.call ((), []) o t) :
    InOrder o t.2 ↔ ∀ e ∈ t.2, ¬ LacksParameters e := by
  have hsettles : Settles o t.2 := h.ends (settles available c)
  rcases hsettles with ⟨horder, hparams⟩ | ⟨rfl, hlacks⟩
  · exact iff_of_true horder hparams
  · refine iff_of_false ?_ ?_
    · rintro ⟨-, out, hout, -⟩
      cases hout
    · obtain ⟨e, he, hmissing⟩ := hlacks
      exact fun hall => hall e he hmissing

/-- The reply that opens the operation of an encryption for user 0. -/
def openedWith (parameters : Option (List KeyParameter)) : Event KeystoreI :=
  ⟨.createOperation (getStorageKeyDescriptor 0) encryptionParams, (.ok, ⟨some 0, parameters⟩)⟩

/-- An encryption of one byte with the nonce 7 and the ciphertext 9. -/
def encryptionRun : List (Event KeystoreI) :=
  [⟨.securityLevel, true⟩, openedWith (some [.nonce [7]]), ⟨.update 0 [1], ⟨.ok, none⟩⟩,
    ⟨.finish 0, ⟨.ok, some [9]⟩⟩]

theorem ends_reply {E : Environment KeystoreI Unit} {s t : Unit × List (Event KeystoreI)}
    {α : Type} {o : Option α} (c : KeystoreCall) {next : c.Reply → Program KeystoreI α}
    (r : c.Reply) (hr : E c s.1 r ())
    (h : Ends (traced E) (next r) ((), s.2 ++ [⟨c, r⟩]) o t) :
    Ends (traced E) (.call c next) s o t := .call ⟨hr, rfl⟩ h

theorem ends_encryptionRun : Ends (traced (keystoreReplies true)) (encrypt 0 [1]) ((), [])
    (some [1, 1, 7, 9]) ((), encryptionRun) := by
  refine ends_reply .securityLevel true rfl ?_
  refine ends_reply (.createOperation _ _) (.ok, ⟨some 0, some [.nonce [7]]⟩) nofun ?_
  refine ends_reply (.update 0 [1]) ⟨.ok, none⟩ trivial ?_
  exact ends_reply (.finish 0) ⟨.ok, some [9]⟩ trivial (.done _ _)

/-- The same up to a response without parameters. -/
def absentRun : List (Event KeystoreI) := [⟨.securityLevel, true⟩, openedWith none]

theorem ends_absentRun {E : Environment KeystoreI Unit} (hlevel : E .securityLevel () true ())
    (hcreate : E (openedWith none).call () (openedWith none).reply ()) :
    Ends (traced E) (encrypt 0 [1]) ((), []) none ((), absentRun) := by
  refine ends_reply .securityLevel true hlevel ?_
  exact ends_reply (.createOperation _ _) (.ok, ⟨some 0, none⟩) hcreate (.stuck fun r => r.elim)

theorem inOrder_encryptionRun : InOrder (some [1, 1, 7, 9]) encryptionRun := by
  refine (inOrder_iff true (.encrypt 0 [1]) _ ((), encryptionRun) ends_encryptionRun).mpr ?_
  rintro e he ⟨hopens, hparams⟩
  simp only [encryptionRun, List.mem_cons, List.not_mem_nil, or_false] at he
  rcases he with rfl | rfl | rfl | rfl
  · exact hopens
  · cases hparams
  · exact hopens
  · exact hopens

/-- Keystore may leave the parameters out, and then the operation is not closed. -/
theorem not_inOrder_encrypt : ¬ ∀ available c o (t : Unit × List (Event KeystoreI)),
    Ends (traced (keystoreReplies available)) (CryptoOperation.call c) ((), []) o t →
      InOrder o t.2 := by
  intro horder
  obtain ⟨-, out, hout, -⟩ := horder true (.encrypt 0 [1]) none _ (ends_absentRun rfl nofun)
  cases hout

end functions

end CryptoClient
end FaceHal
