import FaceHal.Keystore

/-!
# The Keystore client

`CryptoClient` encrypts, decrypts and signs through Keystore operations, in
chunks of 4096 bytes. Encryption and signing generate a missing key once and try
again; decryption does not. A failed update or finish aborts the operation, and
every failure is the empty vector to the caller.
-/
namespace FaceHal
namespace CryptoClient

def kFaceHalKeystoreNamespace : ℕ := 65000
def kStoragePayloadVersion : UInt8 := 1
def kMaxNonceSize : ℕ := 32
def kChunkSize : ℕ := 4096

def storageAliasForUser (userId : Int32) : Text :=
  "milahaina_face_template_aes_gcm_v2_user_".toList ++ toDecimal userId

def getStorageKeyDescriptor (userId : Int32) : KeyDescriptor :=
  ⟨kFaceHalKeystoreNamespace, storageAliasForUser userId⟩

def getMacKeyDescriptor : KeyDescriptor :=
  ⟨kFaceHalKeystoreNamespace, "milahaina_face_template_hmac_sha256_v2".toList⟩

def getNonceFromResponse (response : CreateOperationResponse) : Program KeystoreI (Option Bytes) :=
  match response.parameters with
  | none => request .absentDereference >>= fun r => r.elim
  | some params => return nonceOf params

def serializeStoragePayload (nonce ciphertext : Bytes) : Bytes :=
  if nonce = [] ∨ kMaxNonceSize < nonce.length ∨ ciphertext = [] then []
  else kStoragePayloadVersion :: UInt8.ofNat nonce.length :: (nonce ++ ciphertext)

def parseStoragePayload (payload : Bytes) : Option (Bytes × Bytes) :=
  if payload.length < 3 then none
  else if payload.getD 0 0 ≠ kStoragePayloadVersion then none
  else
    let nonceLen := (payload.getD 1 0).toNat
    if nonceLen = 0 ∨ kMaxNonceSize < nonceLen then none
    else if payload.length ≤ 2 + nonceLen then none
    else some ((payload.drop 2).take nonceLen, payload.drop (2 + nonceLen))

def looksKeyMissing (message : Text) : Bool :=
  decide ("KEY_NOT_FOUND".toList <:+: message) ||
    decide ("Failed to load key blob".toList <:+: message) ||
    decide ("does not exist".toList <:+: message)

def looksKeyAlreadyExists (message : Text) : Bool :=
  decide ("KEY_ALREADY_EXISTS".toList <:+: message) || decide ("already exists".toList <:+: message)

/-- The part that `generateStorageKey` and `generateMacKey` share. -/
def generateKey (key : KeyDescriptor) (params : List KeyParameter) : Program KeystoreI Bool := do
  if !(← request .securityLevel) then
    return false
  let status ← request (.generateKey key params)
  if !status.isOk then
    return looksKeyAlreadyExists status.getMessage
  return true

def generateStorageKey (userId : Int32) : Program KeystoreI Bool :=
  generateKey (getStorageKeyDescriptor userId)
    [.algorithm .aes, .keySize 256, .purpose .encrypt, .purpose .decrypt, .blockModeGcm,
      .paddingNone,
      .minMacLength 128, .noAuthRequired]

def generateMacKey : Program KeystoreI Bool :=
  generateKey getMacKeyDescriptor
    [.algorithm .hmac, .digestSha256, .keySize 256, .purpose .sign, .purpose .verify,
      .minMacLength 256, .noAuthRequired]

/-- `createOperation`, with one more attempt after a missing key was generated. -/
def createOrGenerate (key : KeyDescriptor) (opParams : List KeyParameter)
    (generate : Program KeystoreI Bool) : Program KeystoreI (Option CreateOperationResponse) := do
  let (status, result) ← request (.createOperation key opParams)
  if opens (status, result) then
    return some result
  if !looksKeyMissing status.getMessage then
    return none
  if !(← generate) then
    return none
  let (status, result) ← request (.createOperation key opParams)
  if !opens (status, result) then
    return none
  return some result

/-- The pieces that the chunk loop cuts off, at most `fuel` of them. -/
def chunks : ℕ → Bytes → List Bytes
  | 0, _ => []
  | fuel + 1, data =>
      if data = [] then [] else data.take kChunkSize :: chunks fuel (data.drop kChunkSize)

/-- The chunk loop; `none` when an update failed. -/
def feed (operation : ℕ) : List Bytes → Bytes → Program KeystoreI (Option Bytes)
  | [], out => return some out
  | chunk :: rest, out => do
      let reply ← request (.update operation chunk)
      if !reply.status.isOk then
        request (.abort operation)
        return none
      feed operation rest (out ++ reply.output.getD [])

/-- The chunk loop and the finish that the three operations share. -/
def stream (operation : ℕ) (data : Bytes) : Program KeystoreI (Option Bytes) := do
  match ← feed operation (chunks data.length data) [] with
  | none => return none
  | some out =>
      let reply ← request (.finish operation)
      if !reply.status.isOk then
        request (.abort operation)
        return none
      return some (out ++ reply.output.getD [])

def encrypt (userId : Int32) (data : Bytes) : Program KeystoreI Bytes := do
  if !(← request .securityLevel) then
    return []
  if data = [] then
    return []
  let opParams := [.purpose .encrypt, .blockModeGcm, .paddingNone, .macLength 128]
  match ← createOrGenerate (getStorageKeyDescriptor userId) opParams
    (generateStorageKey userId) with
  | none => return []
  | some result =>
      let operation := result.iOperation.getD 0
      match ← getNonceFromResponse result with
      | none =>
          request (.abort operation)
          return []
      | some [] =>
          request (.abort operation)
          return []
      | some nonce =>
          match ← stream operation data with
          | none => return []
          | some ciphertext => return serializeStoragePayload nonce ciphertext

def decrypt (userId : Int32) (encryptedPayload : Bytes) : Program KeystoreI Bytes := do
  if !(← request .securityLevel) then
    return []
  match parseStoragePayload encryptedPayload with
  | none => return []
  | some (nonce, ciphertext) =>
      let opParams := [.purpose .decrypt, .blockModeGcm, .paddingNone, .macLength 128, .nonce nonce]
      let (status, result) ← request (.createOperation (getStorageKeyDescriptor userId) opParams)
      if !opens (status, result) then
        return []
      return (← stream (result.iOperation.getD 0) ciphertext).getD []

def signWithHmacKey (data : Bytes) : Program KeystoreI Bytes := do
  if !(← request .securityLevel) then
    return []
  let opParams := [.purpose .sign, .digestSha256, .macLength 256]
  match ← createOrGenerate getMacKeyDescriptor opParams generateMacKey with
  | none => return []
  | some result => return (← stream (result.iOperation.getD 0) data).getD []

def generateMac (data : Bytes) : Program KeystoreI Bytes := do
  if data = [] then
    return []
  signWithHmacKey data

def verifyMac (data mac : Bytes) : Program KeystoreI Bool := do
  if mac = [] then
    return false
  let calculatedMac ← signWithHmacKey data
  if calculatedMac = [] then
    return false
  if mac.length ≠ calculatedMac.length then
    return false
  return mac == calculatedMac

end CryptoClient
end FaceHal
