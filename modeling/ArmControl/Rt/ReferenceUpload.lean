import ArmControl.Rt.ReferenceSelection

/-!
# Upload and admission of a reference (`reference_upload.hpp`)

The control thread stages one candidate at a time: BEGIN fixes its identity, CHUNKs append its
bytes in order, SEAL checks the digest and decodes the knots.  `bytes` holds the bytes received so
far; `sha256` is the library's digest.
-/

namespace ArmControl.Rt

structure ReferenceUpload where
  session : ℕ
  joints : ℕ
  n : ℕ
  model : Digest
  epoch : ℕ := 0
  lastUpload : ℕ := 0
  lastAborted : ℕ := 0
  present : Bool := false
  isSealed : Bool := false
  bytes : List (BitVec 8) := []
  candidate : AdmittedReference := {}
  deriving Inhabited

namespace ReferenceUpload

/-- the double at byte offset `at_`, little-endian -/
def readF64 (bytes : List (BitVec 8)) (at_ : ℕ) : F64 :=
  ⟨BitVec.ofNat 64 ((List.range 8).foldr
    (fun i acc => acc * 256 + ((bytes[at_ + i]?).getD 0).toNat) 0)⟩

/-- the knots of the received bytes: time, `n` positions and, for Hermite curves, `n` velocities -/
def decodeCurve (b : ReferenceBeginPayload) (bytes : List (BitVec 8)) : NativeReference :=
  let stride := 8 + 8 * b.n * (if b.hermite then 2 else 1)
  { n := b.n
    k := b.knots
    hermite := b.hermite
    times := fun i => if i < b.knots then readF64 bytes (i * stride) else .zero
    q := fun i j => if i < b.knots ∧ j < b.n then readF64 bytes (i * stride + 8 + 8 * j) else .zero
    v := fun i j =>
      if b.hermite = true ∧ i < b.knots ∧ j < b.n then
        readF64 bytes (i * stride + 8 + 8 * b.n + 8 * j)
      else .zero }

/-- an epoch change discards the unselected candidate -/
def observeEpoch (u : ReferenceUpload) (epoch : ℕ) : ReferenceUpload :=
  if epoch ≠ u.epoch then { u with epoch := epoch, present := false, isSealed := false } else u

def discard (u : ReferenceUpload) : ReferenceUpload := { u with present := false, isSealed := false }

def «begin» (u : ReferenceUpload) (b : ReferenceBeginPayload) (selectedId selectedRevision : ℕ) :
    ReferenceResult × ReferenceUpload :=
  if b.valid = false then (.malformed, u)
  else if b.sessionId ≠ u.session ∨ b.jointOrderHash ≠ u.joints ∨ b.n ≠ u.n ∨
      b.armEpoch ≠ u.epoch ∨ b.modelDigest ≠ u.model then (.identity, u)
  else if b.expectedRevision ≠ selectedRevision ∨
      (selectedRevision ≠ 0 ∧ b.referenceId ≠ selectedId) then (.revision, u)
  else if u.present = true then
    if b.uploadId = u.candidate.identity.uploadId then
      (if b = u.candidate.identity then .ok else .identity, u)
    else (.busy, u)
  else if b.uploadId ≤ u.lastUpload then (.retired, u)
  else
    (.ok, { u with
      lastUpload := b.uploadId
      candidate := { u.candidate with identity := b, curve := {} }
      present := true, isSealed := false, bytes := [] })

def chunk (u : ReferenceUpload) (c : ReferenceChunkPayload) : ReferenceResult × ReferenceUpload :=
  let total := u.candidate.identity.byteCount
  let stop := c.offset + c.length
  if c.valid = false then (.malformed, u)
  else if u.present = false ∨ c.uploadId ≠ u.candidate.identity.uploadId then (.retired, u)
  else if total < stop ∨ c.offset % referenceChunkBytes ≠ 0 ∨
      c.length ≠ min referenceChunkBytes (total - c.offset) then (.malformed, u)
  else if stop ≤ u.bytes.length then
    (if (u.bytes.drop c.offset).take c.length = c.data then .ok else .integrity, u)
  else if u.isSealed = true ∨ c.offset ≠ u.bytes.length then (.malformed, u)
  else (.ok, { u with bytes := u.bytes ++ c.data })

def «seal» (sha256 : List (BitVec 8) → Digest) (u : ReferenceUpload) (s : ReferenceSealPayload)
    (now : ℕ) : ReferenceResult × ReferenceUpload :=
  let b := u.candidate.identity
  if s.valid = false then (.malformed, u)
  else if u.present = false ∨ s.uploadId ≠ b.uploadId then (.retired, u)
  else if u.bytes.length ≠ b.byteCount then (.notAdmitted, u)
  else if sha256 u.bytes ≠ s.sha256 then (.integrity, u)
  else if u.isSealed = true then (.ok, u)
  else
    let curve := decodeCurve b u.bytes
    let u := { u with candidate := { u.candidate with curve := curve } }
    if Value.lt (curve.times 0).value (.fin 0) = true ∨
        (b.expectedRevision = 0 ∧ (curve.times 0).value ≠ .fin 0) ∨
        curve.validReference = false then (.malformed, u)
    else
      (.ok, { u with candidate := { u.candidate with sealedAtNs := now }, isSealed := true })

def abort (u : ReferenceUpload) (id : ℕ) : ReferenceResult × ReferenceUpload :=
  if id = 0 then (.malformed, u)
  else if u.present = false then (if id = u.lastAborted then .ok else .retired, u)
  else if id ≠ u.candidate.identity.uploadId then (.retired, u)
  else (.ok, { u with lastAborted := id }.discard)

def admitted (u : ReferenceUpload) : Option AdmittedReference :=
  if u.present && u.isSealed then some u.candidate else none

def candidateIdentity (u : ReferenceUpload) : Option ReferenceBeginPayload :=
  if u.present then some u.candidate.identity else none

end ReferenceUpload

end ArmControl.Rt
