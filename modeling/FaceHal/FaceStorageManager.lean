import FaceHal.FaceTemplateSerializer

/-!
# The template store

`FaceStorageManager` keeps one file per face in a directory per user: an
encrypted file, or a file marked as plaintext when Keystore could not encrypt.
The functions below issue the calls of the source in its order. An error code
that the source shares between two calls is a value passed along.
-/
namespace FaceHal
namespace FaceStorageManager
open FaceTemplateSerializer

def userDirectoryName (userId : Int32) : Text := "user_".toList ++ toDecimal userId

def fileName (faceId : Int32) : Text := "face_".toList ++ toDecimal faceId ++ ".dat".toList

def plaintextFileName (faceId : Int32) : Text :=
  "face_".toList ++ toDecimal faceId ++ "_without_encryption.dat".toList

def getUserDirectory (userId : Int32) : Program StorageI Text := do
  let dir := userDirectoryName userId
  if !(← invoke (.existsDir dir)) then
    invoke (.createDirectories dir)
    invoke (.chmodDir dir 0o770)
  return dir

def getFilePath (userId faceId : Int32) : Program StorageI Path := do
  return ⟨← getUserDirectory userId, fileName faceId⟩

def getPlaintextFilePath (userId faceId : Int32) : Program StorageI Path := do
  return ⟨← getUserDirectory userId, plaintextFileName faceId⟩

/-- A file that cannot be opened or read is an empty vector. -/
def readFile (path : Path) : Program StorageI Bytes := do
  return (← invoke (.readFile path)).getD []

def tempPath (path : Path) : Path := ⟨path.dir, path.name ++ ".tmp".toList⟩

/-- `if (fs::exists(path, ec)) fs::remove(path, ec);` with the error not looked at. -/
def removeIfPresent (path : Path) : Program StorageI Unit := do
  if ← invoke (.exists path) then
    let _ ← invoke (.remove path)

/-- Write the data next to its place and rename it there. -/
def writeAndRename (finalPath stalePath : Path) (data : Bytes) : Program StorageI Bool := do
  let temp := tempPath finalPath
  if !(← invoke (.openTruncated temp)) then
    return false
  -- the state of the stream is not looked at after these two
  let _ ← invoke (.write temp data)
  let _ ← invoke (.close temp)
  invoke (.chmod temp 0o600)
  if !(← invoke (.rename temp finalPath)) then
    invoke (.unlink temp)
    return false
  removeIfPresent stalePath
  return true

def saveTemplate (tmpl : FaceTemplate) : Program StorageI Bool := do
  let serializedData ← serialize tmpl
  if serializedData = [] then
    return false
  let finalPath ← getFilePath tmpl.userId tmpl.faceId
  let stalePath ← getPlaintextFilePath tmpl.userId tmpl.faceId
  let dataToWrite ← invoke (.encrypt tmpl.userId serializedData)
  if dataToWrite = [] then
    let finalPath := stalePath
    let stalePath ← getFilePath tmpl.userId tmpl.faceId
    writeAndRename finalPath stalePath serializedData
  else
    writeAndRename finalPath stalePath dataToWrite

/-- The lambda of `loadTemplate`. -/
def deserializeAndValidate (userId faceId : Int32) (data : Bytes) (outTmpl : FaceTemplate) :
    Program StorageI (Bool × FaceTemplate) := do
  let (ok, outTmpl) ← deserialize data outTmpl
  if !ok then
    return (false, outTmpl)
  return (outTmpl.userId == userId && outTmpl.faceId == faceId, outTmpl)

/-- The plaintext part of `loadTemplate`. -/
def loadPlaintext (userId faceId : Int32) (outTmpl : FaceTemplate) :
    Program StorageI (Bool × FaceTemplate) := do
  let plaintextData ← readFile (← getPlaintextFilePath userId faceId)
  if plaintextData = [] then
    return (false, outTmpl)
  deserializeAndValidate userId faceId plaintextData outTmpl

def loadTemplate (userId faceId : Int32) (outTmpl : FaceTemplate) :
    Program StorageI (Bool × FaceTemplate) := do
  let encryptedData ← readFile (← getFilePath userId faceId)
  if encryptedData = [] then
    loadPlaintext userId faceId outTmpl
  else
    let decryptedData ← invoke (.decrypt userId encryptedData)
    if decryptedData = [] then
      loadPlaintext userId faceId outTmpl
    else
      let (ok, outTmpl) ← deserializeAndValidate userId faceId decryptedData outTmpl
      if ok then
        return (true, outTmpl)
      loadPlaintext userId faceId outTmpl

/-- `filename.find("face_") == 0 && filename.find(".dat") != npos`. -/
def namesTemplate (filename : Text) : Bool :=
  "face_".toList.isPrefixOf filename && decide (".dat".toList <:+: filename)

/-- The face id that `sscanf` leaves in a variable initialised with -1. -/
def parseFaceId (filename : Text) : Int32 :=
  if "_without_encryption.dat".toList <:+: filename then
    (sscanf filename ⟨"face_".toList, "_without_encryption.dat".toList⟩).getD (-1)
  else
    (sscanf filename ⟨"face_".toList, ".dat".toList⟩).getD (-1)

/-- A fresh local `FaceTemplate`. -/
def freshTemplate : FaceTemplate := ⟨0, 0, 0, [], 0, []⟩

/-- The loop of `loadAllTemplatesForUser` over the entries still to come. `failed`
is the error code that the iteration shares with `fs::remove`. -/
def loadEntries (userId : Int32) (dir : Text) :
    List Text → Bool → List Int32 → List FaceTemplate → Program StorageI (List FaceTemplate)
  | [], _, _, templates => return templates
  | filename :: rest, failed, loadedFaceIds, templates => do
      if failed then
        return templates
      if namesTemplate filename && parseFaceId filename != -1 then
        let faceId := parseFaceId filename
        if faceId ∈ loadedFaceIds then
          loadEntries userId dir rest false loadedFaceIds templates
        else
          let (ok, tmpl) ← loadTemplate userId faceId freshTemplate
          if ok then
            loadEntries userId dir rest false (faceId :: loadedFaceIds) (templates ++ [tmpl])
          else
            let removed ← invoke (.remove ⟨dir, filename⟩)
            loadEntries userId dir rest (!removed) loadedFaceIds templates
      else
        loadEntries userId dir rest false loadedFaceIds templates

def loadAllTemplatesForUser (userId : Int32) : Program StorageI (List FaceTemplate) := do
  let dir ← getUserDirectory userId
  match ← invoke (.openDirectory dir) with
  | none => return []
  | some names => loadEntries userId dir names false [] []

def removeUser (userId : Int32) : Program StorageI Bool := do
  let dir ← getUserDirectory userId
  if ← invoke (.existsDir dir) then
    invoke (.removeAll dir)
  return true

/-- The end of `deleteTemplate`: wipe the directory when no template file is left. -/
def wipeIfEmpty (userId : Int32) : Program StorageI Unit := do
  let dir ← getUserDirectory userId
  let hasFaces := ((← invoke (.openDirectory dir)).getD []).any namesTemplate
  if !hasFaces then
    let _ ← removeUser userId

def deleteTemplate (userId faceId : Int32) : Program StorageI Bool := do
  let path ← getFilePath userId faceId
  let plaintextPath ← getPlaintextFilePath userId faceId
  removeIfPresent path
  removeIfPresent plaintextPath
  wipeIfEmpty userId
  return true

end FaceStorageManager
end FaceHal
