import Libdeno.Library.BigEndian
import Libdeno.Supervisor.Frame
import Libdeno.Supervisor.Transport

/-!
# Libdeno.Supervisor.Codec

Frames on the wire: an eighteen-byte header (magic, version, kind, big-endian
request id and payload length) and the payload. The writer is `write_frame_until`;
the reader is `read_frame_with_magic` behind its two entry points.

`frame_codec` is the agreement of the two, byte for byte and for every way the
transport splits the stream.
-/

namespace Libdeno.Supervisor

open Reader BigEndian

/-- `SUPERVISOR_FRAME_TIMEOUT`, in milliseconds. -/
def supervisorFrameTimeout : Nat := 10000

/-! ### The header -/

/-- The fields of a header as they stand on the wire. -/
@[ext] structure Header where
  magic : List UInt8
  magic_length : magic.length = 4
  version : UInt8
  kindByte : UInt8
  requestId : UInt64
  payloadLen : UInt32

/-- The bytes of a header. -/
def Header.bytes (header : Header) : List UInt8 :=
  header.magic ++ ([header.version] ++ ([header.kindByte] ++
    (toBE 8 header.requestId.toNat ++ toBE 4 header.payloadLen.toNat)))

@[simp] theorem Header.length_bytes (header : Header) :
    header.bytes.length = supervisorHeaderLen := by
  simp [Header.bytes, header.magic_length, supervisorHeaderLen]

/-- What a reader in the given direction requires of a header. -/
structure Header.Admissible (header : Header) (expected : FrameDirection) : Prop where
  magic : header.magic = supervisorMagic
  version : header.version = supervisorVersion
  kind : ∃ kind, FrameKind.fromByte header.kindByte = some kind ∧ kind.direction = expected
  payloadLen : header.payloadLen.toNat ≤ maxSupervisorFramePayload

theorem ofBE_toBE_requestId (requestId : UInt64) :
    ofBE (toBE 8 requestId.toNat) = requestId.toNat :=
  ofBE_toBE requestId.toNat_lt

theorem ofBE_toBE_payloadLen (payloadLen : UInt32) :
    ofBE (toBE 4 payloadLen.toNat) = payloadLen.toNat :=
  ofBE_toBE payloadLen.toNat_lt

/-- A header is determined by its bytes. -/
theorem Header.eq_of_prefix {header header' : Header} {rest : List UInt8}
    (h : header.bytes <+: header'.bytes ++ rest) : header = header' := by
  have hbytes : header.bytes = header'.bytes := by
    have hle : header.bytes.length ≤ header'.bytes.length := by simp
    exact (List.prefix_of_prefix_length_le h (List.prefix_append _ _) hle).eq_of_length (by simp)
  rw [Header.bytes, Header.bytes] at hbytes
  have hmagicLen : header.magic.length = header'.magic.length := by
    rw [header.magic_length, header'.magic_length]
  obtain ⟨hmagic, hbytes⟩ := List.append_inj hbytes hmagicLen
  obtain ⟨hversion, hbytes⟩ := List.append_inj hbytes (by simp)
  obtain ⟨hkind, hbytes⟩ := List.append_inj hbytes (by simp)
  obtain ⟨hid, hlen⟩ := List.append_inj hbytes (by simp)
  have hid' : header.requestId.toNat = header'.requestId.toNat := by
    rw [← ofBE_toBE_requestId, hid, ofBE_toBE_requestId]
  have hlen' : header.payloadLen.toNat = header'.payloadLen.toNat := by
    rw [← ofBE_toBE_payloadLen, hlen, ofBE_toBE_payloadLen]
  exact Header.ext hmagic (by simpa using hversion) (by simpa using hkind)
    (UInt64.toNat_inj.mp hid') (UInt32.toNat_inj.mp hlen')

theorem payloadLen_toNat {payload : List UInt8}
    (fits : payload.length ≤ maxSupervisorFramePayload) :
    (UInt32.ofNat payload.length).toNat = payload.length := by
  have hmax : maxSupervisorFramePayload < 2 ^ 32 := by decide
  exact UInt32.toNat_ofNat_of_lt' (Nat.lt_of_le_of_lt fits hmax)

/-- The header of a frame. -/
def SupervisorFrame.header (frame : SupervisorFrame) : Header where
  magic := supervisorMagic
  magic_length := rfl
  version := supervisorVersion
  kindByte := frame.kind.toByte
  requestId := frame.requestId
  payloadLen := UInt32.ofNat frame.payload.length

/-- The header of a frame that fits passes every check in the frame's direction. -/
theorem SupervisorFrame.header_admissible {frame : SupervisorFrame}
    (fits : frame.payload.length ≤ maxSupervisorFramePayload) :
    frame.header.Admissible frame.kind.direction where
  magic := rfl
  version := rfl
  kind := ⟨frame.kind, FrameKind.fromByte_toByte frame.kind, rfl⟩
  payloadLen := by
    have hlen : frame.header.payloadLen.toNat = frame.payload.length := payloadLen_toNat fits
    rw [hlen]
    exact fits

/-- The encoding of a frame. -/
def SupervisorFrame.bytes (frame : SupervisorFrame) : List UInt8 :=
  frame.header.bytes ++ frame.payload

/-! ### Writing -/

/-- `encode_header`. -/
def encodeHeader (frame : SupervisorFrame) : Except IoError (List UInt8) :=
  if frame.payload.length < 2 ^ 32 then
    .ok (supervisorMagic ++ ([supervisorVersion] ++ ([frame.kind.toByte] ++
      (toBE 8 frame.requestId.toNat ++ toBE 4 frame.payload.length))))
  else
    .error (invalidData "supervisor frame payload length does not fit")

/-- What a call of `write_frame_until` comes to: its result, the bytes it handed to
the network and whether it shut the stream down. -/
structure WriteOutcome where
  result : Except IoError Unit
  sent : List UInt8
  shutdown : Bool

/-- `write_frame_until`; the two schedules are those of its two `write_until`s. -/
def writeFrameUntil (conditions : Conditions) (frame : SupervisorFrame)
    (headerSends payloadSends : SendSchedule) : Option WriteOutcome :=
  if frame.payload.length > maxSupervisorFramePayload then
    some { result := .error (invalidData "supervisor frame payload is too large"),
           sent := [], shutdown := false }
  else
    match encodeHeader frame with
    | .error error => some { result := .error error, sent := [], shutdown := false }
    | .ok header =>
        match writeUntil conditions headerSends header with
        | none => none
        | some (.error error, sent) => some { result := .error error, sent, shutdown := true }
        | some (.ok (), sent) =>
            match writeUntil conditions payloadSends frame.payload with
            | none => none
            | some (.error error, more) =>
                some { result := .error error, sent := sent ++ more, shutdown := true }
            | some (.ok (), more) =>
                some { result := .ok (), sent := sent ++ more, shutdown := false }

/-- A frame that fits has a header, and it is the one the reader expects. -/
theorem encodeHeader_ok {frame : SupervisorFrame}
    (fits : frame.payload.length ≤ maxSupervisorFramePayload) :
    encodeHeader frame = .ok frame.header.bytes := by
  have hmax : maxSupervisorFramePayload < 2 ^ 32 := by decide
  rw [encodeHeader, if_pos (Nat.lt_of_le_of_lt fits hmax)]
  rw [Header.bytes, SupervisorFrame.header, payloadLen_toNat fits]

/-- A write that succeeds sent the encoding; one that fails sent a prefix of it and
shut the stream down. -/
theorem writeFrameUntil_spec {conditions : Conditions} {frame : SupervisorFrame}
    {headerSends payloadSends : SendSchedule} {outcome : WriteOutcome}
    (fits : frame.payload.length ≤ maxSupervisorFramePayload)
    (h : writeFrameUntil conditions frame headerSends payloadSends = some outcome) :
    (outcome.result = .ok () → outcome.sent = frame.bytes) ∧
      ∀ error, outcome.result = .error error →
        outcome.sent <+: frame.bytes ∧ outcome.shutdown = true := by
  rw [writeFrameUntil, if_neg (Nat.not_lt.mpr fits), encodeHeader_ok fits] at h
  dsimp only at h
  split at h
  · cases h
  · next e sent hheader =>
    obtain rfl := Option.some.inj h
    obtain ⟨hstart, -⟩ := writeUntil_spec hheader
    refine ⟨fun hok => (nomatch hok), fun error _ => ⟨?_, rfl⟩⟩
    exact hstart.trans (List.prefix_append _ _)
  · next sent hheader =>
    obtain rfl : sent = frame.header.bytes := (writeUntil_spec hheader).2 rfl
    split at h
    · cases h
    · next e more hpayload =>
      obtain rfl := Option.some.inj h
      obtain ⟨hstart, -⟩ := writeUntil_spec hpayload
      refine ⟨fun hok => (nomatch hok), fun error _ => ⟨?_, rfl⟩⟩
      exact (List.prefix_append_right_inj _).mpr hstart
    · next more hpayload =>
      obtain rfl := Option.some.inj h
      obtain rfl : more = frame.payload := (writeUntil_spec hpayload).2 rfl
      exact ⟨fun _ => rfl, fun error herror => (nomatch herror)⟩

/-- With clean schedules the write succeeds. -/
theorem writeFrameUntil_clean {conditions : Conditions} {frame : SupervisorFrame}
    {headerSends payloadSends : SendSchedule}
    (fits : frame.payload.length ≤ maxSupervisorFramePayload)
    (hheader : headerSends.Clean conditions frame.header.bytes)
    (hpayload : payloadSends.Clean conditions frame.payload) :
    writeFrameUntil conditions frame headerSends payloadSends =
      some { result := .ok (), sent := frame.bytes, shutdown := false } := by
  rw [writeFrameUntil, if_neg (Nat.not_lt.mpr fits), encodeHeader_ok fits]
  dsimp only
  rw [writeUntil_clean hheader]
  dsimp only
  rw [writeUntil_clean hpayload]
  rfl

/-! ### Reading -/

/-- `read_frame_with_magic`. -/
def readFrameWithMagic (expected : FrameDirection) (magic : List UInt8)
    (conditions : Conditions) : ReadIo SupervisorFrame :=
  if magic ≠ supervisorMagic then
    throw (invalidData "invalid supervisor frame magic")
  else do
    let version ← readUntil conditions 1
    if version.headD 0 ≠ supervisorVersion then
      throw (invalidData "unsupported supervisor frame version")
    else do
      let kindByte ← readUntil conditions 1
      match FrameKind.fromByte (kindByte.headD 0) with
      | none => throw (invalidData "unknown supervisor frame kind")
      | some kind =>
          match kind.validateDirection expected with
          | .error error => throw error
          | .ok () => do
              let requestId ← readUntil conditions 8
              let payloadLen ← readUntil conditions 4
              if ofBE payloadLen > maxSupervisorFramePayload then
                throw (invalidData "supervisor frame payload is too large")
              else do
                let payload ← readUntil conditions (ofBE payloadLen)
                pure { kind, requestId := UInt64.ofNat (ofBE requestId), payload }

/-- `read_frame_with_deadline`, which is also `read_frame_until`. -/
def readFrameWithDeadline (expected : FrameDirection) (conditions : Conditions) :
    ReadIo SupervisorFrame := do
  let magic ← readUntil conditions 4
  readFrameWithMagic expected magic conditions

/-- The conditions `read_frame_after_first_byte` reads the rest of a frame under. -/
def assemblyConditions (assemblyDeadline : Option Nat) (watched : Bool) (frameStarted : Nat) :
    Conditions :=
  { deadline := some (assemblyDeadline.getD (frameStarted + supervisorFrameTimeout)), watched }

/-- `read_frame_after_first_byte`; `frameStarted` is the clock after that byte. -/
def readFrameAfterFirstByte (expected : FrameDirection)
    (firstByteDeadline assemblyDeadline : Option Nat) (watched : Bool) (frameStarted : Nat) :
    ReadIo SupervisorFrame := do
  let first ← readUntil { deadline := firstByteDeadline, watched } 1
  let assembly := assemblyConditions assemblyDeadline watched frameStarted
  let tail ← readUntil assembly 3
  readFrameWithMagic expected (first ++ tail) assembly

theorem eq_singleton_of_length {xs : List UInt8} (h : xs.length = 1) : xs = [xs.headD 0] := by
  obtain ⟨x, rfl⟩ := List.length_eq_one_iff.mp h
  rfl

/-! ### What a reader accepts -/

/-- What a reader of frames takes from the stream: exactly the encoding of the frame
it returns, and no payload byte unless the header is admissible. -/
structure FrameRead (expected : FrameDirection) (taken : List UInt8)
    (r : Except IoError SupervisorFrame) : Prop where
  exact : ∀ frame, r = .ok frame →
    taken = frame.bytes ∧ frame.kind.direction = expected ∧
      frame.payload.length ≤ maxSupervisorFramePayload
  header : supervisorHeaderLen < taken.length →
    ∃ header : Header, header.Admissible expected ∧ header.bytes <+: taken

/-- An error before the payload. -/
theorem FrameRead.early {expected : FrameDirection} {taken : List UInt8} {error : IoError}
    (h : taken.length ≤ supervisorHeaderLen) : FrameRead expected taken (.error error) :=
  ⟨fun _ hok => (nomatch hok), fun hlong => absurd h (Nat.not_le.mpr hlong)⟩

theorem readFrameWithMagic_consumes (expected : FrameDirection) {magic : List UInt8}
    (hmagic : magic.length = 4) (conditions : Conditions) :
    Consumes (readFrameWithMagic expected magic conditions) fun more r =>
      FrameRead expected (magic ++ more) r := by
  have early : ∀ {more : List UInt8} {error : IoError}, more.length ≤ 14 →
      FrameRead expected (magic ++ more) (.error error) := by
    intro more error h
    exact FrameRead.early (by rw [List.length_append, hmagic, supervisorHeaderLen]; omega)
  rw [readFrameWithMagic]
  split
  · exact Consumes.throw (early (by simp))
  next hm =>
  have hmagic' : magic = supervisorMagic := not_not.mp hm
  refine consumes_field (fun taken e h => early (by omega)) fun version hversion => ?_
  split
  · exact Consumes.throw (early (by simp [hversion]))
  next hv =>
  refine consumes_field (fun taken e h => early (by simp [hversion]; omega))
    fun kindByte hkind => ?_
  split
  · exact Consumes.throw (early (by simp [hversion, hkind]))
  next kind hfrom =>
  split
  · exact Consumes.throw (early (by simp [hversion, hkind]))
  next hdirection =>
  refine consumes_field (fun taken e h => early (by simp [hversion, hkind]; omega))
    fun requestId hid => ?_
  refine consumes_field (fun taken e h => early (by simp [hversion, hkind, hid]; omega))
    fun payloadLen hlen => ?_
  split
  · exact Consumes.throw (early (by simp [hversion, hkind, hid, hlen]))
  next hfits =>
  -- From here on the header is read and admissible.
  have hidlt : ofBE requestId < 2 ^ 64 := by
    have := ofBE_lt requestId
    rw [hid] at this
    simpa using this
  have hlenlt : ofBE payloadLen < 2 ^ 32 := by
    have := ofBE_lt payloadLen
    rw [hlen] at this
    simpa using this
  let header : Header :=
    { magic, magic_length := hmagic, version := version.headD 0, kindByte := kindByte.headD 0,
      requestId := UInt64.ofNat (ofBE requestId), payloadLen := UInt32.ofNat (ofBE payloadLen) }
  have hbytes : magic ++ (version ++ (kindByte ++ (requestId ++ payloadLen))) =
      header.bytes := by
    have hidBytes := toBE_ofBE requestId
    have hlenBytes := toBE_ofBE payloadLen
    rw [hid] at hidBytes
    rw [hlen] at hlenBytes
    simp only [header, Header.bytes, UInt64.toNat_ofNat_of_lt' hidlt,
      UInt32.toNat_ofNat_of_lt' hlenlt, hidBytes, hlenBytes]
    rw [← eq_singleton_of_length hversion, ← eq_singleton_of_length hkind]
  have hadmissible : header.Admissible expected :=
    { magic := hmagic'
      version := not_not.mp hv
      kind := ⟨kind, hfrom, FrameKind.validateDirection_ok.mp hdirection⟩
      payloadLen := by
        simp only [header, UInt32.toNat_ofNat_of_lt' hlenlt]
        omega }
  have hheader : ∀ more : List UInt8,
      magic ++ (version ++ (kindByte ++ (requestId ++ (payloadLen ++ more)))) =
        header.bytes ++ more := by
    intro more
    rw [← hbytes]
    simp only [List.append_assoc]
  refine consumes_field (fun taken e _ => ?_) fun payload hpayload => ?_
  · refine ⟨fun frame hok => (nomatch hok), fun _ => ⟨header, hadmissible, ?_⟩⟩
    rw [hheader]
    exact List.prefix_append _ _
  · refine Consumes.pure ⟨fun frame hok => ?_, fun _ => ⟨header, hadmissible, ?_⟩⟩
    · obtain rfl := Except.ok.inj hok
      refine ⟨?_, FrameKind.validateDirection_ok.mp hdirection, by simpa [hpayload] using hfits⟩
      have hsame : SupervisorFrame.header
          { kind, requestId := UInt64.ofNat (ofBE requestId), payload } = header :=
        Header.ext hmagic'.symm (not_not.mp hv).symm (FrameKind.toByte_of_fromByte hfrom) rfl
          (congrArg UInt32.ofNat hpayload)
      rw [hheader, List.append_nil, SupervisorFrame.bytes, hsame]
    · rw [hheader]
      exact List.prefix_append _ _

theorem readFrameWithDeadline_consumes (expected : FrameDirection) (conditions : Conditions) :
    Consumes (readFrameWithDeadline expected conditions) (FrameRead expected) :=
  consumes_field (fun _ _ h => FrameRead.early (by rw [supervisorHeaderLen]; omega))
    fun _ hmagic => readFrameWithMagic_consumes expected hmagic conditions

theorem readFrameAfterFirstByte_consumes (expected : FrameDirection)
    (firstByteDeadline assemblyDeadline : Option Nat) (watched : Bool) (frameStarted : Nat) :
    Consumes (readFrameAfterFirstByte expected firstByteDeadline assemblyDeadline watched
      frameStarted) (FrameRead expected) := by
  refine consumes_field (fun _ _ h => FrameRead.early (by rw [supervisorHeaderLen]; omega))
    fun first hfirst => ?_
  refine consumes_field (fun taken _ h => FrameRead.early ?_) fun tail htail => ?_
  · rw [List.length_append, hfirst, supervisorHeaderLen]
    omega
  · have hmagic : (first ++ tail).length = 4 := by rw [List.length_append, hfirst, htail]
    simpa only [List.append_assoc] using
      readFrameWithMagic_consumes expected hmagic _

/-! ### What a reader answers -/

/-- The bytes of a header behind its magic. -/
def Header.tail (header : Header) : List UInt8 :=
  [header.version] ++ ([header.kindByte] ++
    (toBE 8 header.requestId.toNat ++ toBE 4 header.payloadLen.toNat))

theorem Header.bytes_eq (header : Header) : header.bytes = header.magic ++ header.tail := rfl

/-- A field in front of a part that is answered. -/
theorem delivers_field {α : Type} {clean : ReadTurn → Prop} {conditions : Conditions}
    {wanted : Nat} {next : List UInt8 → ReadIo α} {bytes xs : List UInt8}
    {r : Except IoError α}
    (implied : ∀ turn, clean turn → ReadTurn.Clean conditions turn)
    (hlen : bytes.length = wanted) (h : Delivers clean ReadTurn.moving (next bytes) xs r) :
    Delivers clean ReadTurn.moving (readUntil conditions wanted >>= next) (bytes ++ xs) r :=
  Delivers.bind ((readUntil_delivers conditions hlen).mono implied) h

/-- An admissible header and the payload it announces are answered with the frame. -/
theorem readFrameWithMagic_delivers {expected : FrameDirection} {clean : ReadTurn → Prop}
    {conditions : Conditions} (implied : ∀ turn, clean turn → ReadTurn.Clean conditions turn)
    {frame : SupervisorFrame} (hdirection : frame.kind.direction = expected)
    (fits : frame.payload.length ≤ maxSupervisorFramePayload) :
    Delivers clean ReadTurn.moving
      (readFrameWithMagic expected supervisorMagic conditions)
      (frame.header.tail ++ frame.payload) (.ok frame) := by
  have hlen : ofBE (toBE 4 frame.header.payloadLen.toNat) = frame.payload.length := by
    rw [ofBE_toBE_payloadLen]
    exact payloadLen_toNat fits
  have hbytes : frame.header.tail ++ frame.payload =
      [supervisorVersion] ++ ([frame.kind.toByte] ++ (toBE 8 frame.requestId.toNat ++
        (toBE 4 frame.header.payloadLen.toNat ++ (frame.payload ++ [])))) := by
    simp [Header.tail, SupervisorFrame.header]
  rw [hbytes, readFrameWithMagic, if_neg (by simp)]
  refine delivers_field implied rfl ?_
  rw [if_neg (by simp)]
  refine delivers_field implied rfl ?_
  simp only [List.headD_cons, FrameKind.fromByte_toByte,
    FrameKind.validateDirection_ok.mpr hdirection]
  refine delivers_field implied (length_toBE 8 _) ?_
  refine delivers_field implied (length_toBE 4 _) ?_
  rw [hlen, if_neg (Nat.not_lt.mpr fits)]
  refine delivers_field implied rfl ?_
  rw [ofBE_toBE_requestId, UInt64.ofNat_toNat]
  exact Delivers.pure frame

/-- Under a clean schedule the reader refuses a stream that starts with `xs`: it
takes a part of `xs` and answers with an `InvalidData` error. -/
def Rejects {α : Type} (clean : ReadTurn → Prop) (reader : ReadIo α) (xs : List UInt8) : Prop :=
  ∃ front back message, xs = front ++ back ∧
    Delivers clean ReadTurn.moving reader front (.error (invalidData message))

theorem Rejects.throw {α : Type} {clean : ReadTurn → Prop} (message : String)
    (xs : List UInt8) : Rejects clean (throw (invalidData message) : ReadIo α) xs :=
  ⟨[], xs, message, rfl, Delivers.throw _⟩

/-- A field in front of a part that is refused. -/
theorem Rejects.field {α : Type} {clean : ReadTurn → Prop} {conditions : Conditions}
    {wanted : Nat} {next : List UInt8 → ReadIo α} {bytes xs : List UInt8}
    (implied : ∀ turn, clean turn → ReadTurn.Clean conditions turn)
    (hlen : bytes.length = wanted) (h : Rejects clean (next bytes) xs) :
    Rejects clean (readUntil conditions wanted >>= next) (bytes ++ xs) := by
  obtain ⟨front, back, message, rfl, hnext⟩ := h
  refine ⟨bytes ++ front, back, message, (List.append_assoc ..).symm, ?_⟩
  exact delivers_field implied hlen hnext

/-- A header that is not admissible is refused before its payload. -/
theorem readFrameWithMagic_rejects {expected : FrameDirection} {clean : ReadTurn → Prop}
    {conditions : Conditions} (implied : ∀ turn, clean turn → ReadTurn.Clean conditions turn)
    {header : Header} (bad : ¬ header.Admissible expected) :
    Rejects clean (readFrameWithMagic expected header.magic conditions) header.tail := by
  rw [readFrameWithMagic]
  split
  · exact Rejects.throw _ _
  next hmagic =>
  refine Rejects.field implied rfl ?_
  split
  · exact Rejects.throw _ _
  next hversion =>
  refine Rejects.field implied rfl ?_
  split
  · exact Rejects.throw _ _
  next kind hkind =>
  by_cases hdirection : kind.direction = expected
  case neg =>
    rw [FrameKind.validateDirection, if_neg hdirection]
    exact Rejects.throw _ _
  rw [FrameKind.validateDirection_ok.mpr hdirection]
  refine Rejects.field implied (length_toBE 8 _) ?_
  rw [← List.append_nil (toBE 4 _)]
  refine Rejects.field implied (length_toBE 4 _) ?_
  have hlong : header.payloadLen.toNat > maxSupervisorFramePayload := by
    by_contra hfits
    exact bad
      { magic := not_not.mp hmagic, version := not_not.mp hversion,
        kind := ⟨kind, hkind, hdirection⟩, payloadLen := Nat.not_lt.mp hfits }
  rw [ofBE_toBE_payloadLen, if_pos hlong]
  exact Rejects.throw _ _

/-! ### The two entry points -/

section EntryPoints

variable (expected : FrameDirection) (deadline assemblyDeadline : Option Nat) (watched : Bool)
  (frameStarted : Nat)

/-- A turn that is clean for the first byte of a frame and for the rest of it. -/
structure CleanForFrame (turn : ReadTurn) : Prop where
  first : turn.Clean { deadline, watched }
  rest : turn.Clean (assemblyConditions assemblyDeadline watched frameStarted)

/-- The readers of frames. -/
def frameReaders : List (ReadIo SupervisorFrame) :=
  [readFrameWithDeadline expected { deadline, watched },
   readFrameAfterFirstByte expected deadline assemblyDeadline watched frameStarted]

variable {expected deadline assemblyDeadline watched frameStarted}

theorem frameReaders_consumes {reader : ReadIo SupervisorFrame}
    (h : reader ∈ frameReaders expected deadline assemblyDeadline watched frameStarted) :
    Consumes reader (FrameRead expected) := by
  simp only [frameReaders, List.mem_cons, List.not_mem_nil, or_false] at h
  rcases h with rfl | rfl
  · exact readFrameWithDeadline_consumes expected _
  · exact readFrameAfterFirstByte_consumes expected _ _ _ _

theorem frameReaders_delivers {reader : ReadIo SupervisorFrame}
    (h : reader ∈ frameReaders expected deadline assemblyDeadline watched frameStarted)
    {frame : SupervisorFrame} (hdirection : frame.kind.direction = expected)
    (fits : frame.payload.length ≤ maxSupervisorFramePayload) :
    Delivers (CleanForFrame deadline assemblyDeadline watched frameStarted) ReadTurn.moving
      reader frame.bytes (.ok frame) := by
  simp only [frameReaders, List.mem_cons, List.not_mem_nil, or_false] at h
  rcases h with rfl | rfl
  · have hbytes : frame.bytes = supervisorMagic ++ (frame.header.tail ++ frame.payload) := by
      rw [SupervisorFrame.bytes, Header.bytes_eq, List.append_assoc]
      rfl
    rw [hbytes]
    exact delivers_field (fun _ hturn => hturn.first) rfl
      (readFrameWithMagic_delivers (fun _ hturn => hturn.first) hdirection fits)
  · have hbytes : frame.bytes = supervisorMagic.take 1 ++ (supervisorMagic.drop 1 ++
        (frame.header.tail ++ frame.payload)) := by
      rw [← List.append_assoc, List.take_append_drop, SupervisorFrame.bytes, Header.bytes_eq,
        List.append_assoc]
      rfl
    rw [hbytes]
    refine delivers_field (fun _ hturn => hturn.first) rfl ?_
    refine delivers_field (fun _ hturn => hturn.rest) rfl ?_
    exact readFrameWithMagic_delivers (fun _ hturn => hturn.rest) hdirection fits

theorem frameReaders_rejects {reader : ReadIo SupervisorFrame}
    (h : reader ∈ frameReaders expected deadline assemblyDeadline watched frameStarted)
    {header : Header} (bad : ¬ header.Admissible expected) :
    Rejects (CleanForFrame deadline assemblyDeadline watched frameStarted) reader
      header.bytes := by
  simp only [frameReaders, List.mem_cons, List.not_mem_nil, or_false] at h
  rcases h with rfl | rfl
  · exact Rejects.field (fun _ hturn => hturn.first) header.magic_length
      (readFrameWithMagic_rejects (fun _ hturn => hturn.first) bad)
  · have hbytes : header.bytes = header.magic.take 1 ++ (header.magic.drop 1 ++ header.tail) := by
      rw [← List.append_assoc, List.take_append_drop, Header.bytes_eq]
    have hfirst : (header.magic.take 1).length = 1 := by simp [header.magic_length]
    have hsecond : (header.magic.drop 1).length = 3 := by simp [header.magic_length]
    rw [hbytes]
    refine Rejects.field (fun _ hturn => hturn.first) hfirst ?_
    refine Rejects.field (fun _ hturn => hturn.rest) hsecond ?_
    rw [List.take_append_drop]
    exact readFrameWithMagic_rejects (fun _ hturn => hturn.rest) bad

/-- No schedule makes a reader accept such a header or reach the bytes behind it. -/
theorem frameReaders_refuse {reader : ReadIo SupervisorFrame}
    (h : reader ∈ frameReaders expected deadline assemblyDeadline watched frameStarted)
    {header : Header} (bad : ¬ header.Admissible expected) {rest : List UInt8}
    {turns : List ReadTurn} {r : Except IoError SupervisorFrame} {wire' : Inbound}
    (hrun : reader.on ⟨header.bytes ++ rest, turns⟩ = some (r, wire')) :
    (∃ error, r = .error error) ∧ ∃ unread, wire'.pending = unread ++ rest := by
  obtain ⟨taken, htaken, hread⟩ := frameReaders_consumes h _ _ _ hrun
  dsimp only at htaken
  -- What was taken ends within the header.
  have hshort : taken.length ≤ supervisorHeaderLen := by
    by_contra hlong
    obtain ⟨header', hadmissible, hstart⟩ := hread.header (Nat.not_le.mp hlong)
    have hfront : header'.bytes <+: header.bytes ++ rest := by
      rw [htaken]
      exact hstart.trans (List.prefix_append _ _)
    exact bad (Header.eq_of_prefix hfront ▸ hadmissible)
  have hwithin : taken <+: header.bytes := by
    have hfront : taken <+: header.bytes ++ rest := by
      rw [htaken]
      exact List.prefix_append _ _
    exact List.prefix_of_prefix_length_le hfront (List.prefix_append _ _) (by simpa using hshort)
  constructor
  · cases r with
    | error error => exact ⟨error, rfl⟩
    | ok frame =>
        obtain ⟨htake, hdirection, fits⟩ := hread.exact frame rfl
        have hfront : frame.header.bytes <+: header.bytes ++ rest := by
          rw [htaken, htake, SupervisorFrame.bytes, List.append_assoc]
          exact List.prefix_append _ _
        rw [← Header.eq_of_prefix hfront, ← hdirection] at bad
        exact absurd (SupervisorFrame.header_admissible fits) bad
  · obtain ⟨unread, hunread⟩ := hwithin
    refine ⟨unread, ?_⟩
    rw [← hunread, List.append_assoc] at htaken
    exact (List.append_cancel_left htaken).symm

end EntryPoints

/-! ### Agreement of writer and readers -/

/-- The codec, for either reader of a direction and every schedule of partial
transfers:

* what a successful write sent is answered with exactly the frame, nothing behind
  it is touched, and an answer comes once enough turns move bytes;
* a frame is only ever read off its own encoding;
* an inadmissible header is never accepted, no byte behind it is taken, and under a
  clean schedule the answer is an `InvalidData` error;
* a write that fails sent a prefix of the encoding and shut the stream down, and a
  write under clean schedules succeeds. -/
theorem frame_codec (expected : FrameDirection) (deadline assemblyDeadline : Option Nat)
    (watched : Bool) (frameStarted : Nat) :
    (∀ reader ∈ frameReaders expected deadline assemblyDeadline watched frameStarted,
      (∀ frame : SupervisorFrame, frame.kind.direction = expected →
        frame.payload.length ≤ maxSupervisorFramePayload →
        ∀ conditions headerSends payloadSends outcome,
          writeFrameUntil conditions frame headerSends payloadSends = some outcome →
          outcome.result = .ok () →
          outcome.sent.length = supervisorHeaderLen + frame.payload.length ∧
          Delivers (CleanForFrame deadline assemblyDeadline watched frameStarted)
            ReadTurn.moving reader outcome.sent (.ok frame)) ∧
      (∀ wire frame wire', reader.on wire = some (.ok frame, wire') →
        wire.pending = frame.bytes ++ wire'.pending ∧ frame.kind.direction = expected ∧
          frame.payload.length ≤ maxSupervisorFramePayload) ∧
      ∀ header : Header, ¬ header.Admissible expected →
        (∀ rest turns r wire', reader.on ⟨header.bytes ++ rest, turns⟩ = some (r, wire') →
          (∃ error, r = .error error) ∧ ∃ unread, wire'.pending = unread ++ rest) ∧
        Rejects (CleanForFrame deadline assemblyDeadline watched frameStarted) reader
          header.bytes) ∧
    ∀ frame : SupervisorFrame, frame.payload.length ≤ maxSupervisorFramePayload →
      ∀ conditions headerSends payloadSends,
        (∀ outcome, writeFrameUntil conditions frame headerSends payloadSends = some outcome →
          (outcome.result = .ok () → outcome.sent = frame.bytes) ∧
          ∀ error, outcome.result = .error error →
            outcome.sent <+: frame.bytes ∧ outcome.shutdown = true) ∧
        (headerSends.Clean conditions frame.header.bytes →
          payloadSends.Clean conditions frame.payload →
          writeFrameUntil conditions frame headerSends payloadSends =
            some { result := .ok (), sent := frame.bytes, shutdown := false }) := by
  refine ⟨fun reader hreader => ⟨?_, ?_, ?_⟩, ?_⟩
  · intro frame hdirection fits conditions headerSends payloadSends outcome hwrite hok
    have hsent : outcome.sent = frame.bytes := (writeFrameUntil_spec fits hwrite).1 hok
    rw [hsent]
    refine ⟨?_, frameReaders_delivers hreader hdirection fits⟩
    rw [SupervisorFrame.bytes, List.length_append, Header.length_bytes]
  · intro wire frame wire' hrun
    obtain ⟨taken, htaken, hread⟩ := frameReaders_consumes hreader _ _ _ hrun
    obtain ⟨rfl, hdirection, fits⟩ := hread.exact frame rfl
    exact ⟨htaken, hdirection, fits⟩
  · intro header bad
    refine ⟨fun rest turns r wire' hrun => ?_, frameReaders_rejects hreader bad⟩
    exact frameReaders_refuse hreader bad hrun
  · intro frame fits conditions headerSends payloadSends
    refine ⟨fun outcome hwrite => writeFrameUntil_spec fits hwrite, ?_⟩
    intro hheader hpayload
    exact writeFrameUntil_clean fits hheader hpayload

end Libdeno.Supervisor
