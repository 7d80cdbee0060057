import FaceHal.StorageCalls

/-!
# The template format

`FaceTemplateSerializer` lays a template out as version, face id, user id, size,
data and FNV-1a checksum and appends the MAC of all that. The parser checks the
MAC first and then reads the fields into an output template that it fills as it
goes, so a failed parse leaves some fields of the output overwritten.
-/
namespace FaceHal

structure FaceTemplate where
  version : UInt32
  faceId : Int32
  userId : Int32
  templateData : Bytes
  checksum : UInt32
  mac : Bytes
deriving DecidableEq, Repr

namespace FaceTemplateSerializer

/-- FNV-1a over the bytes. -/
def calculateChecksum (data : Bytes) : UInt32 :=
  data.foldl (fun hash byte => (hash ^^^ byte.toUInt32) * 16777619) 2166136261

/-- The fields before the checksum. The size field keeps 32 bits of the length
and that many bytes of the data are copied. -/
def header (tmpl : FaceTemplate) : Bytes :=
  let templateSize := UInt32.ofNat tmpl.templateData.length
  wordBytes tmpl.version ++ wordBytes tmpl.faceId.toUInt32 ++ wordBytes tmpl.userId.toUInt32 ++
    wordBytes templateSize ++ tmpl.templateData.take templateSize.toNat

/-- The bytes the MAC is computed over. -/
def payload (tmpl : FaceTemplate) : Bytes :=
  header tmpl ++ wordBytes (calculateChecksum (header tmpl))

def serialize (tmpl : FaceTemplate) : Program StorageI Bytes := do
  let buffer := payload tmpl
  let mac ← invoke (.generateMac buffer)
  if mac = [] then
    return []
  return buffer ++ mac

def macSize : ℕ := 32

/-- Four header words, the checksum and the MAC. -/
def minSize : ℕ := 4 + 4 + 4 + 4 + 4 + macSize

/-- The part of `deserialize` after the MAC was accepted. -/
def readFields (currentVersion : UInt32) (data storedMac : Bytes) (outTmpl : FaceTemplate) :
    Bool × FaceTemplate :=
  let outTmpl := { outTmpl with mac := storedMac, version := readWord data 0 }
  if outTmpl.version ≠ currentVersion then
    (false, outTmpl)
  else
    let outTmpl := { outTmpl with
      faceId := (readWord data 4).toInt32, userId := (readWord data 8).toInt32 }
    let templateSize := (readWord data 12).toNat
    if data.length ≠ minSize + templateSize then
      (false, outTmpl)
    else
      let outTmpl := { outTmpl with templateData := (data.drop 16).take templateSize }
      let storedChecksum := readWord data (16 + templateSize)
      let calculatedChecksum := calculateChecksum (data.take (16 + templateSize))
      if storedChecksum ≠ calculatedChecksum then
        (false, outTmpl)
      else
        (true, { outTmpl with checksum := storedChecksum })

def deserialize (data : Bytes) (outTmpl : FaceTemplate) :
    Program StorageI (Bool × FaceTemplate) := do
  if data.length < minSize then
    return (false, outTmpl)
  let actualData := data.take (data.length - macSize)
  let storedMac := data.drop (data.length - macSize)
  if !(← invoke (.verifyMac actualData storedMac)) then
    return (false, outTmpl)
  let currentVersion ← invoke .currentVersion
  return readFields currentVersion data storedMac outTmpl

end FaceTemplateSerializer
end FaceHal
