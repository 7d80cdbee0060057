import FaceHal.FileSystem
import FaceHal.ProgramRuns

/-!
# The calls of the template store

`FaceStorageManager` and `FaceTemplateSerializer` reach the outside world through
`std::filesystem`, streams, a few POSIX calls, `CryptoClient` and one static
variable that the engine library sets. Each is one call here. `Works` says what a
call does when nothing goes wrong and `Fails` what is left when it does; an
environment of the store fixes which calls may fail.

`CryptoClient` appears through the functions it computes while Keystore answers.
Permission bits are not part of the state, so `chmod` changes nothing.
-/
namespace FaceHal

inductive StorageCall where
  | existsDir (d : Text)
  | createDirectories (d : Text)
  | chmodDir (d : Text) (mode : ℕ)
  /-- Open, measure and read a whole file; `none` if one of these fails. -/
  | readFile (p : Path)
  | openTruncated (p : Path)
  /-- The reply is the number of bytes that reached the file. -/
  | write (p : Path) (data : Bytes)
  /-- The reply is the number of bytes left in the file. -/
  | close (p : Path)
  | chmod (p : Path) (mode : ℕ)
  | rename (source target : Path)
  | unlink (p : Path)
  | exists (p : Path)
  /-- The reply is false when the call reports an error. -/
  | remove (p : Path)
  /-- The names in the order in which the iterator yields them. -/
  | openDirectory (d : Text)
  | removeAll (d : Text)
  | encrypt (userId : Int32) (data : Bytes)
  | decrypt (userId : Int32) (payload : Bytes)
  | generateMac (data : Bytes)
  | verifyMac (data mac : Bytes)
  /-- Read `FaceTemplateSerializer::CURRENT_VERSION`. -/
  | currentVersion
deriving DecidableEq

@[reducible] def StorageCall.Reply : StorageCall → Type
  | .existsDir _ => Bool
  | .createDirectories _ => Unit
  | .chmodDir _ _ => Unit
  | .readFile _ => Option Bytes
  | .openTruncated _ => Bool
  | .write _ _ => ℕ
  | .close _ => ℕ
  | .chmod _ _ => Unit
  | .rename _ _ => Bool
  | .unlink _ => Unit
  | .exists _ => Bool
  | .remove _ => Bool
  | .openDirectory _ => Option (List Text)
  | .removeAll _ => Unit
  | .encrypt _ _ => Bytes
  | .decrypt _ _ => Bytes
  | .generateMac _ => Bytes
  | .verifyMac _ _ => Bool
  | .currentVersion => UInt32

abbrev StorageI : Interface := ⟨StorageCall, StorageCall.Reply⟩

/-- Issue one call of the store. -/
def invoke (c : StorageCall) : Program StorageI c.Reply := @Program.perform StorageI c

/-- What `CryptoClient` computes while Keystore answers. The first argument of
`encrypt` is the randomness of the nonce. -/
structure Crypto where
  currentVersion : UInt32
  encrypt : ℕ → Int32 → Bytes → Bytes
  decrypt : Int32 → Bytes → Bytes
  mac : Bytes → Bytes

/-- `CryptoClient::verifyMac` recomputes the MAC and compares. -/
def Crypto.verifies (C : Crypto) (data mac : Bytes) : Bool := !mac.isEmpty && mac == C.mac data

/-- Decryption inverts encryption per user, and the MAC has the 256 bits of
HMAC-SHA256. -/
structure LawfulCrypto extends Crypto where
  encrypt_ne_nil : ∀ n u d, d ≠ [] → encrypt n u d ≠ []
  decrypt_encrypt : ∀ n u d, d ≠ [] → decrypt u (encrypt n u d) = d
  length_mac : ∀ d, (mac d).length = 32

/-- The laws have a model: encryption prepends a byte and every MAC is the same. -/
def toyCrypto : LawfulCrypto where
  currentVersion := 1
  encrypt _ _ d := 0 :: d
  decrypt _ d := d.tail
  mac _ := List.replicate 32 7
  encrypt_ne_nil := by simp
  decrypt_encrypt := by simp
  length_mac := by simp

/-- Append to an existing file. -/
def FileSystem.append (s : FileSystem) (p : Path) (data : Bytes) : FileSystem :=
  match s.fileAt p with
  | some content => s.put p (content ++ data)
  | none => s

def Works (C : Crypto) : Environment StorageI FileSystem
  | .existsDir d, s, r, t => r = s.hasDir d ∧ t = s
  | .createDirectories d, s, _, t => t = s.mkdir d
  | .chmodDir _ _, s, _, t => t = s
  | .readFile p, s, r, t => r = s.fileAt p ∧ t = s
  | .openTruncated p, s, r, t => r = s.hasDir p.dir ∧ t = s.put p []
  | .write p data, s, r, t => r = data.length ∧ t = s.append p data
  | .close p, s, r, t => r = ((s.fileAt p).getD []).length ∧ t = s
  | .chmod _ _, s, _, t => t = s
  | .rename p q, s, r, t =>
      match s.fileAt p, s.hasDir q.dir with
      | some content, true => r = true ∧ t = (s.erase p).put q content
      | _, _ => r = false ∧ t = s
  | .unlink p, s, _, t => t = s.erase p
  | .exists p, s, r, t => r = (s.fileAt p).isSome ∧ t = s
  | .remove p, s, r, t => r = true ∧ t = s.erase p
  | .openDirectory d, s, r, t => t = s ∧
      match s.entries d with
      | some l => ∃ l', l'.Perm l ∧ r = some l'
      | none => r = none
  | .removeAll d, s, _, t => t = s.removeAll d
  | .encrypt u d, s, r, t => (∃ n, r = if d = [] then [] else C.encrypt n u d) ∧ t = s
  | .decrypt u c, s, r, t => r = C.decrypt u c ∧ t = s
  | .generateMac d, s, r, t => (r = if d = [] then [] else C.mac d) ∧ t = s
  | .verifyMac d m, s, r, t => r = C.verifies d m ∧ t = s
  | .currentVersion, s, r, t => r = C.currentVersion ∧ t = s

/-- What is left of a call that failed: a file call leaves the files as they
were, except that a write or a close loses the end of the data and a recursive
removal may stop half way. `CryptoClient` answers with the empty vector. -/
def Fails : Environment StorageI FileSystem
  | .existsDir _, s, r, t => r = false ∧ t = s
  | .createDirectories _, s, _, t => t = s
  | .chmodDir _ _, s, _, t => t = s
  | .readFile _, s, r, t => r = none ∧ t = s
  | .openTruncated _, s, r, t => r = false ∧ t = s
  | .write p data, s, r, t => r < data.length ∧ t = s.append p (data.take r)
  | .close p, s, r, t => r < ((s.fileAt p).getD []).length ∧
      t = s.put p (((s.fileAt p).getD []).take r)
  | .chmod _ _, s, _, t => t = s
  | .rename _ _, s, r, t => r = false ∧ t = s
  | .unlink _, s, _, t => t = s
  | .exists _, s, r, t => r = false ∧ t = s
  | .remove _, s, r, t => r = false ∧ t = s
  | .openDirectory _, s, r, t => r = none ∧ t = s
  | .removeAll d, s, _, t => (∀ e, e ≠ d → t.hasDir e = s.hasDir e) ∧
      (∀ p, p.dir ≠ d → t.fileAt p = s.fileAt p) ∧
      ∀ p, t.fileAt p = none ∨ t.fileAt p = s.fileAt p
  | .encrypt _ _, s, r, t => r = [] ∧ t = s
  | .decrypt _ _, s, r, t => r = [] ∧ t = s
  | .generateMac _, s, r, t => r = [] ∧ t = s
  | .verifyMac _ _, s, r, t => r = false ∧ t = s
  | .currentVersion, _, _, _ => False

/-- Whether a call fails. -/
inductive Fault where
  | never
  | sometimes
  | always
deriving DecidableEq, Repr

/-- The environment of the store in which calls fail as planned. -/
def storageEnv (C : Crypto) (fault : StorageCall → Fault) : Environment StorageI FileSystem :=
  fun c s r t =>
    match fault c with
    | .never => Works C c s r t
    | .sometimes => Works C c s r t ∨ Fails c s r t
    | .always => Fails c s r t

/-- No file call fails; each encryption may find Keystore unavailable. -/
def encryptionMayFail : StorageCall → Fault
  | .encrypt _ _ => .sometimes
  | _ => .never

/-- One way for every call to succeed: directories list their files in stored
order and the nonce comes from `n`. -/
def answer (C : Crypto) (n : ℕ) : (c : StorageCall) → FileSystem → c.Reply × FileSystem
  | .existsDir d, s => (s.hasDir d, s)
  | .createDirectories d, s => ((), s.mkdir d)
  | .chmodDir _ _, s => ((), s)
  | .readFile p, s => (s.fileAt p, s)
  | .openTruncated p, s => (s.hasDir p.dir, s.put p [])
  | .write p data, s => (data.length, s.append p data)
  | .close p, s => (((s.fileAt p).getD []).length, s)
  | .chmod _ _, s => ((), s)
  | .rename p q, s =>
      match s.fileAt p, s.hasDir q.dir with
      | some content, true => (true, (s.erase p).put q content)
      | _, _ => (false, s)
  | .unlink p, s => ((), s.erase p)
  | .exists p, s => ((s.fileAt p).isSome, s)
  | .remove p, s => (true, s.erase p)
  | .openDirectory d, s => (s.entries d, s)
  | .removeAll d, s => ((), s.removeAll d)
  | .encrypt u d, s => (if d = [] then [] else C.encrypt n u d, s)
  | .decrypt u c, s => (C.decrypt u c, s)
  | .generateMac d, s => (if d = [] then [] else C.mac d, s)
  | .verifyMac d m, s => (C.verifies d m, s)
  | .currentVersion, s => (C.currentVersion, s)

theorem works_answer (C : Crypto) (n : ℕ) (c : StorageCall) (s : FileSystem) :
    Works C c s (answer C n c s).1 (answer C n c s).2 := by
  cases c with
  | rename p q =>
      cases hp : s.fileAt p <;> cases hq : s.hasDir q.dir <;> simp [Works, answer, hp, hq]
  | openDirectory d =>
      refine ⟨rfl, ?_⟩
      cases h : s.entries d with
      | none => exact h
      | some l => exact ⟨l, .refl l, h⟩
  | encrypt u d => exact ⟨⟨n, rfl⟩, rfl⟩
  | createDirectories _ | chmodDir _ _ | chmod _ _ | unlink _ | removeAll _ => rfl
  | _ => exact ⟨rfl, rfl⟩

theorem storageEnv_of_works {C : Crypto} {fault : StorageCall → Fault} {c : StorageCall}
    {s t : FileSystem} {r : c.Reply} (h : Works C c s r t) (hf : fault c ≠ .always) :
    storageEnv C fault c s r t := by
  unfold storageEnv
  split
  · exact h
  · exact .inl h
  · next ha => exact absurd ha hf

theorem storageEnv_of_fails {C : Crypto} {fault : StorageCall → Fault} {c : StorageCall}
    {s t : FileSystem} {r : c.Reply} (h : Fails c s r t) (hf : fault c ≠ .never) :
    storageEnv C fault c s r t := by
  unfold storageEnv
  split
  · next hn => exact absurd hn hf
  · exact .inr h
  · exact h

theorem storageEnv_elim {C : Crypto} {fault : StorageCall → Fault} {c : StorageCall}
    {s t : FileSystem} {r : c.Reply} (h : storageEnv C fault c s r t) :
    Works C c s r t ∨ fault c ≠ .never ∧ Fails c s r t := by
  unfold storageEnv at h
  cases hf : fault c with
  | never =>
      rw [hf] at h
      exact .inl h
  | sometimes =>
      rw [hf] at h
      exact h.imp_right fun hbad => ⟨nofun, hbad⟩
  | always =>
      rw [hf] at h
      exact .inr ⟨nofun, h⟩

/-- Unless a call must fail it is answered, so every program of the store returns. -/
theorem storageEnv_total (C : Crypto) {fault : StorageCall → Fault}
    (hf : ∀ c, fault c ≠ .always) (c : StorageCall) (s : FileSystem) :
    ∃ r t, storageEnv C fault c s r t :=
  ⟨_, _, storageEnv_of_works (works_answer C 0 c s) (hf c)⟩

theorem run_answer (C : Crypto) {fault : StorageCall → Fault} (hf : ∀ c, fault c ≠ .always)
    (n : ℕ) {α : Type} (p : Program StorageI α) (s : FileSystem) :
    Program.Run (storageEnv C fault) p s (p.eval (answer C n) s).1 (p.eval (answer C n) s).2 :=
  Program.run_eval (fun c s => storageEnv_of_works (works_answer C n c s) (hf c)) p s

theorem encryptionMayFail_ne_always (c : StorageCall) : encryptionMayFail c ≠ .always := by
  cases c <;> simp [encryptionMayFail]

theorem encryptionMayFail_of_works {C : Crypto} (c : StorageCall) (s : FileSystem) (r : c.Reply)
    (t : FileSystem) (h : Works C c s r t) : storageEnv C encryptionMayFail c s r t :=
  storageEnv_of_works h (encryptionMayFail_ne_always c)

/-- Every call succeeds, except the encryptions. -/
def answerPlain (C : Crypto) : (c : StorageCall) → FileSystem → c.Reply × FileSystem
  | .encrypt _ _, s => ([], s)
  | c, s => answer C 0 c s

theorem storageEnv_answerPlain (C : Crypto) (c : StorageCall) (s : FileSystem) :
    storageEnv C encryptionMayFail c s (answerPlain C c s).1 (answerPlain C c s).2 := by
  cases c with
  | encrypt u d => exact .inr ⟨rfl, rfl⟩
  | _ => exact storageEnv_of_works (works_answer C 0 _ s) (encryptionMayFail_ne_always _)

theorem works_openDirectory {C : Crypto} {s t : FileSystem} {d : Text} {r : Option (List Text)}
    (hd : s.hasDir d = true) (h : Works C (.openDirectory d) s r t) :
    t = s ∧ ∃ l l', s.entries d = some l ∧ l'.Perm l ∧ r = some l' := by
  obtain ⟨l, hl⟩ := Option.isSome_iff_exists.mp ((s.entries_isSome d).trans hd)
  simp only [Works, hl] at h
  obtain ⟨rfl, l', hperm, hr⟩ := h
  exact ⟨rfl, l, l', hl, hperm, hr⟩

@[simp] theorem invoke_bind (c : StorageCall) {α : Type} (f : c.Reply → Program StorageI α) :
    invoke c >>= f = .call c f := rfl

section rules
variable {C : Crypto} {fault : StorageCall → Fault} {α : Type} {Q : α → FileSystem → Prop}
variable {s : FileSystem}

theorem wp_works {c : StorageCall} (h : fault c = .never) {next : c.Reply → Program StorageI α} :
    (Program.call (I := StorageI) c next).wp (storageEnv C fault) Q s ↔
      ∀ r t, Works C c s r t → (next r).wp (storageEnv C fault) Q t := by
  simp only [Program.wp, storageEnv, h]

end rules

@[simp] theorem FileSystem.hasDir_append (s : FileSystem) (p : Path) (data : Bytes) (d : Text) :
    (s.append p data).hasDir d = s.hasDir d := by
  unfold append
  split
  · exact s.hasDir_put d p _
  · rfl

theorem FileSystem.fileAt_append_ne (s : FileSystem) {p q : Path} (data : Bytes) (h : q ≠ p) :
    (s.append p data).fileAt q = s.fileAt q := by
  unfold append
  split
  · exact s.fileAt_put_ne _ h
  · rfl

theorem FileSystem.fileAt_append_self {s : FileSystem} {p : Path} {content : Bytes}
    (data : Bytes) (h : s.fileAt p = some content) :
    (s.append p data).fileAt p = some (content ++ data) := by
  unfold append
  rw [h]
  exact s.fileAt_put_self p _ (hasDir_of_fileAt h)

end FaceHal
