import FaceHal.ByteWords
import FaceHal.DecimalText
import FaceHal.ProgramRuns

/-!
# The Keystore interface

The calls that `CryptoClient` issues to Keystore2 and what comes back. An
operation is known by the handle that its creation returned. Keystore streams: an
operation collects its input over several updates and may give out its output in
any pieces, as long as the pieces together are the result for the whole input.
Which calls fail is left to a plan.
-/
namespace FaceHal

inductive KeyPurpose where
  | encrypt
  | decrypt
  | sign
  | verify
deriving DecidableEq, Repr

inductive Algorithm where
  | aes
  | hmac
deriving DecidableEq, Repr

/-- The parameters that occur in requests and responses, by their tag. -/
inductive KeyParameter where
  | algorithm (a : Algorithm)
  | keySize (bits : ℕ)
  | purpose (p : KeyPurpose)
  | blockModeGcm
  | paddingNone
  | digestSha256
  | macLength (bits : ℕ)
  | minMacLength (bits : ℕ)
  | noAuthRequired
  | nonce (blob : Bytes)
deriving DecidableEq, Repr

/-- The parts of a key descriptor that differ between keys. -/
structure KeyDescriptor where
  nspace : ℕ
  keyAlias : Text
deriving DecidableEq, Repr

inductive Status where
  | ok
  | error (message : Text)
deriving DecidableEq, Repr

namespace Status

def isOk : Status → Bool
  | .ok => true
  | .error _ => false

def getMessage : Status → Text
  | .ok => []
  | .error message => message

end Status

structure CreateOperationResponse where
  iOperation : Option ℕ
  /-- Nullable in the interface. -/
  parameters : Option (List KeyParameter)

/-- The reply to `update` and `finish`. -/
structure StreamReply where
  status : Status
  output : Option Bytes

inductive KeystoreCall where
  /-- Is `mSecLevel` set? -/
  | securityLevel
  | createOperation (key : KeyDescriptor) (params : List KeyParameter)
  | update (operation : ℕ) (input : Bytes)
  | finish (operation : ℕ)
  | abort (operation : ℕ)
  | generateKey (key : KeyDescriptor) (params : List KeyParameter)
  /-- A read through a null pointer: nothing comes back. -/
  | absentDereference

@[reducible] def KeystoreCall.Reply : KeystoreCall → Type
  | .securityLevel => Bool
  | .createOperation _ _ => Status × CreateOperationResponse
  | .update _ _ => StreamReply
  | .finish _ => StreamReply
  | .abort _ => Unit
  | .generateKey _ _ => Status
  | .absentDereference => Empty

abbrev KeystoreI : Interface := ⟨KeystoreCall, KeystoreCall.Reply⟩

/-- Issue one call to Keystore. -/
def request (c : KeystoreCall) : Program KeystoreI c.Reply := @Program.perform KeystoreI c

@[simp] theorem request_bind (c : KeystoreCall) {α : Type} (f : c.Reply → Program KeystoreI α) :
    request c >>= f = .call c f := rfl

theorem wp_request {σ : Type} {E : Environment KeystoreI σ} {c : KeystoreCall} {α : Type}
    {f : c.Reply → Program KeystoreI α} {Q : α → σ → Prop} {s : σ} :
    (request c >>= f).wp E Q s ↔ ∀ r t, E c s r t → (f r).wp E Q t := Iff.rfl

theorem may_request {σ : Type} {E : Environment KeystoreI σ} {c : KeystoreCall} {α : Type}
    {f : c.Reply → Program KeystoreI α} {Q : α → σ → Prop} {s : σ} :
    (request c >>= f).may E Q s ↔ ∃ r t, E c s r t ∧ (f r).may E Q t := Iff.rfl

/-- The functions behind the operations. Opening may reject. -/
structure KeystoreFunctions where
  sealWith : KeyDescriptor → Bytes → Bytes → Bytes
  openWith : KeyDescriptor → Bytes → Bytes → Option Bytes
  hmac : KeyDescriptor → Bytes → Bytes

/-- An operation: its key and purpose, the nonce, and what went in and came out. -/
structure Operation where
  key : KeyDescriptor
  purpose : KeyPurpose
  nonce : Bytes
  input : Bytes
  emitted : Bytes

def Operation.result (K : KeystoreFunctions) (op : Operation) : Option Bytes :=
  match op.purpose with
  | .encrypt => some (K.sealWith op.key op.nonce op.input)
  | .decrypt => K.openWith op.key op.nonce op.input
  | .sign => some (K.hmac op.key op.input)
  | .verify => none

/-- The operation after one more piece of input and of output. -/
def Operation.push (op : Operation) (input output : Bytes) : Operation :=
  { op with input := op.input ++ input, emitted := op.emitted ++ output }

/-- The operations created so far; a handle is a position. -/
abbrev KeystoreState : Type := List Operation

/-- Which calls may fail. -/
structure KeystoreFaults where
  unavailable : Bool
  create : KeyDescriptor → KeyPurpose → Bool
  update : KeyDescriptor → KeyPurpose → Bool
  finish : KeyDescriptor → KeyPurpose → Bool

/-- No request for this key and purpose can fail. -/
def KeystoreFaults.Reliable (o : KeystoreFaults) (key : KeyDescriptor)
    (purpose : KeyPurpose) : Prop :=
  o.unavailable = false ∧ o.create key purpose = false ∧ o.update key purpose = false ∧
    o.finish key purpose = false

instance (o : KeystoreFaults) (key : KeyDescriptor) (purpose : KeyPurpose) :
    Decidable (o.Reliable key purpose) :=
  inferInstanceAs (Decidable (_ ∧ _ ∧ _ ∧ _))

def purposeOf (params : List KeyParameter) : Option KeyPurpose :=
  params.findSome? fun
    | .purpose p => some p
    | _ => none

def nonceOf (params : List KeyParameter) : Option Bytes :=
  params.findSome? fun
    | .nonce blob => some blob
    | _ => none

/-- The reply reports a new operation. -/
def opens (r : Status × CreateOperationResponse) : Bool := r.1.isOk && r.2.iOperation.isSome

def keystoreEnv (K : KeystoreFunctions) (o : KeystoreFaults) : Environment KeystoreI KeystoreState
  | .securityLevel, s, r, t => r = !o.unavailable ∧ t = s
  | .createOperation key params, s, r, t => ∃ purpose, purposeOf params = some purpose ∧
      ((∃ nonce, r.1 = .ok ∧ r.2.iOperation = some s.length ∧
          (purpose = .encrypt → (r.2.parameters.bind nonceOf) = some nonce ∧
            nonce ≠ [] ∧ nonce.length ≤ 32) ∧
          (purpose = .decrypt → nonceOf params = some nonce) ∧
          t = s ++ [⟨key, purpose, nonce, [], []⟩]) ∨
        o.create key purpose = true ∧ opens r = false ∧ t = s)
  | .update h data, s, r, t => ∃ op, s[h]? = some op ∧
      (r.status = .ok ∧ t = s.set h (op.push data (r.output.getD [])) ∨
        o.update op.key op.purpose = true ∧ r.status ≠ .ok ∧ t = s)
  | .finish h, s, r, t => t = s ∧ ∃ op, s[h]? = some op ∧
      (r.status = .ok ∧ op.result K = some (op.emitted ++ r.output.getD []) ∨
        (op.result K = none ∨ o.finish op.key op.purpose = true) ∧ r.status ≠ .ok)
  | .abort _, s, _, t => t = s
  | .generateKey _ _, s, _, t => t = s
  | .absentDereference, _, _, _ => False

end FaceHal
