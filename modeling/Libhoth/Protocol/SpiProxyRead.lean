import Libhoth.Protocol.SpiProxyUpdate

/-!
# The SPI proxy: reading and verifying

`libhoth_spi_proxy_read` and `libhoth_spi_proxy_verify` of `spi_proxy.c`: a read command for up to
1007 bytes at a time, behind whose opcode and address the data of the reply begins.

`libhothSpiProxyRead_spec` has both sides. Against a device that carries out the transactions on a
flash (`flashDevice`), the read fills the buffer with the cells and the verification succeeds
exactly on equal data; against any device, a reply that is an error or too short is the last one and
the call fails (`StopsOnDeficient`). Both rest on `ensures_spiReadChunk`, which says what one chunk
does in any environment.
-/

set_option autoImplicit false
set_option relaxedAutoImplicit false

namespace Libhoth.Protocol.SpiProxyRead

open Foundation.ByteString Foundation.CellMemory Foundation.CheckedAccess
open Foundation.InteractingProgram Foundation.SpiNorFlash
open Status HostCommand HostCommandProgram SpiOperation SpiProxy SpiProxyUpdate

/-! ### The programs -/

/-- `SPI_OP_READ`. -/
def spiOpRead : UInt8 := 0x03

/-- `OPCODE_AND_ADDRESS_MAX_SIZE`. -/
def opcodeAndAddressMaxSize : ℕ := 5

/-- `READ_CHUNK_SIZE`. -/
def readChunkSize : ℕ :=
  maxSpiOpPayloadBytes - spiOperationRequestSize - opcodeAndAddressMaxSize

/-- The operation that `spi_read_chunk` builds. -/
def buildReadChunk (is4Byte : Bool) (addr : UInt32) (len : ℕ) : Except Fault Operation := do
  let op ← spiOperationBeginTransaction spiOperationInit
  let op ← spiOperationWriteMosi op [spiOpRead]
  let op ← spiOperationWriteMosiAddress op is4Byte addr
  spiOperationReadMisoAndEndTransaction op true len

/-- `spi_read_chunk`: the bytes that it copies to its destination, or the error. -/
def spiReadChunk (is4Byte : Bool) (addr : UInt32) (len : ℕ) :
    HostProgram (Except Fault (Except LibhothError (List UInt8))) :=
  match buildReadChunk is4Byte addr len with
  | .error fault => return .error fault
  | .ok op => do
    match ← spiOperationExecute op with
    | .error status => return .ok (.error status)
    | .ok copied => return .ok (.ok copied.flatten)

/-- The variables of the loop of `libhoth_spi_proxy_read`, where `cbuf` is an offset into the
buffer. -/
structure ReadState where
  addr : UInt32
  cbuf : ℕ
  len : ℕ
  buf : List UInt8

/-- One round of the loop of `libhoth_spi_proxy_read`. -/
def readRound (is4Byte : Bool) (state : ReadState) :
    HostProgram ({next : ReadState // next.len < state.len} ⊕
      Except Fault (LibhothError × List UInt8)) :=
  if h : state.len > 0 then do
    let readLen := min state.len readChunkSize
    match ← spiReadChunk is4Byte state.addr readLen with
    | .error fault => return .inr (.error fault)
    | .ok (.error status) => return .inr (.ok (status, state.buf))
    | .ok (.ok miso) =>
      match overwriteWithin state.buf state.cbuf miso with
      | .error fault => return .inr (.error fault)
      | .ok buf => return .inl ⟨⟨state.addr + UInt32.ofNat readLen, state.cbuf + readLen,
          state.len - readLen, buf⟩, Nat.sub_lt h (Nat.lt_min.mpr ⟨h, by decide⟩)⟩
  else return .inr (.ok (hothSuccess, state.buf))

/-- `libhoth_spi_proxy_read` into a buffer of `len` bytes: the error word and the buffer. -/
def libhothSpiProxyRead (is4Byte : Bool) (addr : UInt32) (buf : List UInt8) :
    HostProgram (Except Fault (LibhothError × List UInt8)) :=
  whileDecreasing ReadState.len (readRound is4Byte) ⟨addr, 0, buf.length, buf⟩

/-- The variables of the loop of `libhoth_spi_proxy_verify`, where `cbuf` is what remains of the
data. -/
structure VerifyState where
  addr : UInt32
  cbuf : List UInt8

/-- One round of the loop of `libhoth_spi_proxy_verify`. -/
def verifyRound (is4Byte : Bool) (state : VerifyState) :
    HostProgram ({next : VerifyState // next.cbuf.length < state.cbuf.length} ⊕
      Except Fault LibhothError) :=
  if h : state.cbuf.length > 0 then do
    let readLen := min state.cbuf.length readChunkSize
    match ← spiReadChunk is4Byte state.addr readLen with
    | .error fault => return .inr (.error fault)
    | .ok (.error status) => return .inr (.ok status)
    | .ok (.ok readBuf) =>
      if state.cbuf.take readLen ≠ readBuf then return .inr (.ok (cmdExecStatus .fail))
      else return .inl ⟨⟨state.addr + UInt32.ofNat readLen, state.cbuf.drop readLen⟩, by
        rw [List.length_drop]
        exact Nat.sub_lt h (Nat.lt_min.mpr ⟨h, by decide⟩)⟩
  else return .inr (.ok hothSuccess)

/-- `libhoth_spi_proxy_verify`, without the progress report. -/
def libhothSpiProxyVerify (is4Byte : Bool) (addr : UInt32) (buf : List UInt8) :
    HostProgram (Except Fault LibhothError) :=
  whileDecreasing (fun state : VerifyState ↦ state.cbuf.length) (verifyRound is4Byte) ⟨addr, buf⟩

/-! ### One chunk -/

section Chunk

variable (is4Byte : Bool) (addr : UInt32) {len : ℕ}

/-- The transaction of a chunk. -/
def readTransaction (is4Byte : Bool) (addr : UInt32) (len : ℕ) : SpiTransaction where
  mosi := spiOpRead :: addressBytes is4Byte addr
  misoLen := 1 + addressWidth is4Byte + len

/-- The operation of a chunk. -/
def readOperation (is4Byte : Bool) (addr : UInt32) (len : ℕ) : Operation where
  buf := encodeTransactions [readTransaction is4Byte addr len]
  headerOffset := 0
  transactions := [⟨1 + addressWidth is4Byte, true, len⟩]

/-- The host command of a chunk. -/
def readCall (is4Byte : Bool) (addr : UInt32) (len : ℕ) : HostCommand :=
  spiOperationCall (readOperation is4Byte addr len)

/-- What a chunk returns on a reply. -/
def chunkResult (is4Byte : Bool) (len : ℕ) {call : HostCommand} (reply : HostReply call) :
    Except LibhothError (List UInt8) :=
  match reply with
  | .failed status _ => .error status
  | .accepted response _ =>
    if response.length < 1 + addressWidth is4Byte + len then .error (cmdExecStatus .fail)
    else .ok (slice response (1 + addressWidth is4Byte) len)

/-- No assertion fails in the building of a chunk. -/
theorem buildReadChunk_eq (hlen : 0 < len) :
    buildReadChunk is4Byte addr len = .ok (readOperation is4Byte addr len) := by
  have hbegin : spiOperationBeginTransaction spiOperationInit =
      .ok ⟨List.replicate spiOperationRequestSize 0, 0, []⟩ := rfl
  have hopcode : spiOperationWriteMosi ⟨List.replicate spiOperationRequestSize 0, 0, []⟩
      [spiOpRead] = .ok ⟨List.replicate spiOperationRequestSize 0 ++ [spiOpRead], 0, []⟩ := rfl
  have haddress : spiOperationWriteMosiAddress
      ⟨List.replicate spiOperationRequestSize 0 ++ [spiOpRead], 0, []⟩ is4Byte addr =
      .ok ⟨List.replicate spiOperationRequestSize 0 ++ [spiOpRead] ++ addressBytes is4Byte addr, 0,
        []⟩ := by
    cases is4Byte <;> rfl
  have hwidth : addressWidth is4Byte + 1 = 1 + addressWidth is4Byte := Nat.add_comm _ _
  rw [buildReadChunk, hbegin, ok_bind, hopcode, ok_bind, haddress, ok_bind]
  simp [spiOperationReadMisoAndEndTransaction, readOperation, readTransaction, encodeTransactions,
    SpiTransaction.encode, spiOperationRequestSize, maxTransactions, hlen, hwidth]

/-- The loop of the execution over a single transaction that reads. -/
theorem spiOperationCopyMiso_read (hlen : 0 < len) (response : List UInt8) :
    spiOperationCopyMiso response (readOperation is4Byte addr len).transactions 0 =
      if response.length < 1 + addressWidth is4Byte + len then none
      else some [slice response (1 + addressWidth is4Byte) len] := by
  have hsum : len + (1 + addressWidth is4Byte) = 1 + addressWidth is4Byte + len :=
    Nat.add_comm _ _
  simp [readOperation, spiOperationCopyMiso, hlen, hsum]

/-- One chunk is one host command, in any environment. -/
theorem ensures_spiReadChunk {σ : Type} {environment : Environment HostReply σ} (hlen : 0 < len)
    (state : σ) (post : Except Fault (Except LibhothError (List UInt8)) → σ → Prop) :
    Ensures environment (spiReadChunk is4Byte addr len) state post ↔
      ∀ reply final, environment state (readCall is4Byte addr len) reply final →
        post (.ok (chunkResult is4Byte len reply)) final := by
  rw [spiReadChunk, buildReadChunk_eq is4Byte addr hlen]
  simp only [spiOperationExecute, hostcmdExec, ensures_bind, ensures_request]
  refine forall_congr' fun reply ↦ forall_congr' fun final ↦ imp_congr_right fun _ ↦ ?_
  cases reply with
  | failed status nonzero => simp [chunkResult]
  | accepted response fits =>
    simp only [spiOperationCopyMiso_read is4Byte addr hlen, chunkResult]
    split_ifs <;> simp

theorem admits_spiReadChunk {σ : Type} {environment : Environment HostReply σ} (hlen : 0 < len)
    {state final : σ} {post : Except Fault (Except LibhothError (List UInt8)) → σ → Prop}
    {reply : HostReply (readCall is4Byte addr len)}
    (hreply : environment state (readCall is4Byte addr len) reply final)
    (hpost : post (.ok (chunkResult is4Byte len reply)) final) :
    Admits environment (spiReadChunk is4Byte addr len) state post := by
  rw [spiReadChunk, buildReadChunk_eq is4Byte addr hlen]
  refine (admits_bind _ _ _ _).mpr ((admits_bind _ _ _ _).mpr (admits_request reply hreply ?_))
  cases reply with
  | failed status nonzero => exact admits_done (admits_done hpost)
  | accepted response fits =>
    simp only [spiOperationCopyMiso_read is4Byte addr hlen]
    rw [chunkResult] at hpost
    split_ifs at hpost ⊢ with hshort
    · exact admits_done (admits_done hpost)
    · refine admits_done (admits_done ?_)
      rw [List.flatten_singleton]
      exact hpost

/-- The device reads the transaction of a chunk back from its host command. -/
theorem decodeTransactions_readCall (hlen : len ≤ readChunkSize) :
    decodeTransactions (readCall is4Byte addr len).payload =
      some [readTransaction is4Byte addr len] := by
  have hwidth := addressWidth_le is4Byte
  have hsize : len ≤ 1007 := hlen
  refine decodeTransactions_encode _ fun transaction hmem ↦ ?_
  rw [List.mem_singleton.mp hmem]
  refine ⟨?_, ?_⟩
  · rw [readTransaction, List.length_cons, length_addressBytes]
    omega
  · simp only [readTransaction]
    omega

end Chunk

/-! ### Any device -/

/-- The bytes of a round of a read of `total` bytes. -/
def chunkLen (total round : ℕ) : ℕ :=
  min (total - readChunkSize * round) readChunkSize

/-- A reply that is an error or has fewer bytes than asked for. -/
def Deficient (expected : ℕ) : Exchange HostReply → Prop
  | ⟨_, .failed _ _⟩ => True
  | ⟨_, .accepted response _⟩ => response.length < expected

/-- Every command reads the next chunk, and a reply that is an error or is shorter than the opcode,
the address and the chunk is the last one and gives an error. -/
def StopsOnDeficient (is4Byte : Bool) (addr : UInt32) (total : ℕ) (err : LibhothError)
    (history : HostHistory) : Prop :=
  ∀ before exchange after, history = before ++ exchange :: after →
    exchange.1 = readCall is4Byte (addr + UInt32.ofNat (readChunkSize * before.length))
        (chunkLen total before.length) ∧
      (Deficient (1 + addressWidth is4Byte + chunkLen total before.length) exchange →
        after = [] ∧ err ≠ hothSuccess)

section AnyDevice

variable {is4Byte : Bool} {addr : UInt32} {total : ℕ} {history : HostHistory}

/-- A read part way through: every command so far read the next chunk and had a full reply. -/
def ReadsOn (is4Byte : Bool) (addr : UInt32) (total : ℕ) (history : HostHistory) : Prop :=
  ∀ before exchange after, history = before ++ exchange :: after →
    exchange.1 = readCall is4Byte (addr + UInt32.ofNat (readChunkSize * before.length))
        (chunkLen total before.length) ∧
      ¬Deficient (1 + addressWidth is4Byte + chunkLen total before.length) exchange

theorem ReadsOn.nil : ReadsOn is4Byte addr total [] := by
  intro before exchange after hsplit
  exact absurd hsplit.symm (List.append_ne_nil_of_right_ne_nil _ (List.cons_ne_nil _ _))

/-- The loop between two chunks: the address and the number of bytes left follow from the number of
commands. -/
structure AtChunk (is4Byte : Bool) (addr : UInt32) (total : ℕ) (history : HostHistory)
    (next : UInt32) (left : ℕ) : Prop where
  reads : ReadsOn is4Byte addr total history
  left_eq : left = total - readChunkSize * history.length
  next_eq : 0 < left → next = addr + UInt32.ofNat (readChunkSize * history.length)

theorem AtChunk.initial : AtChunk is4Byte addr total [] addr total :=
  ⟨.nil, rfl, fun _ ↦ (UInt32.add_zero addr).symm⟩

section Round

variable {next : UInt32} {left : ℕ} (hat : AtChunk is4Byte addr total history next left)
  (hmore : 0 < left) (reply : HostReply (readCall is4Byte next (min left readChunkSize)))
include hat hmore

theorem AtChunk.call_eq : readCall is4Byte next (min left readChunkSize) =
    readCall is4Byte (addr + UInt32.ofNat (readChunkSize * history.length))
      (chunkLen total history.length) := by
  rw [hat.next_eq hmore, hat.left_eq, chunkLen]

/-- A reply that ends the call with an error. -/
theorem AtChunk.stopsOnDeficient {err : LibhothError} (herr : err ≠ hothSuccess) :
    StopsOnDeficient is4Byte addr total err (history ++ [⟨_, reply⟩]) := by
  intro before exchange after hsplit
  rcases snoc_eq_append_cons hsplit with ⟨rfl, rfl, rfl⟩ | ⟨rest, hrest⟩
  · exact ⟨hat.call_eq hmore, fun _ ↦ ⟨rfl, herr⟩⟩
  · obtain ⟨hcall, hfull⟩ := hat.reads before exchange rest hrest
    exact ⟨hcall, fun hdeficient ↦ absurd hdeficient hfull⟩

/-- A reply with the chunk takes the loop to the next one. -/
theorem AtChunk.snoc {miso : List UInt8}
    (hmiso : chunkResult is4Byte (min left readChunkSize) reply = .ok miso) :
    AtChunk is4Byte addr total (history ++ [⟨_, reply⟩])
        (next + UInt32.ofNat (min left readChunkSize)) (left - min left readChunkSize) ∧
      miso.length = min left readChunkSize := by
  have hsize : readChunkSize = 1007 := rfl
  have hleft := hat.left_eq
  cases reply with
  | failed status nonzero => cases hmiso
  | accepted response fits =>
    rw [chunkResult] at hmiso
    split_ifs at hmiso with hshort
    obtain rfl := Except.ok.inj hmiso
    refine ⟨⟨fun before exchange after hsplit ↦ ?_, ?_, fun hagain ↦ ?_⟩,
      length_slice_of_le (not_lt.mp hshort)⟩
    · rcases snoc_eq_append_cons hsplit with ⟨rfl, rfl, rfl⟩ | ⟨rest, hrest⟩
      · refine ⟨hat.call_eq hmore, ?_⟩
        rw [chunkLen, ← hleft]
        exact hshort
      · exact hat.reads before exchange rest hrest
    · rw [List.length_append, List.length_singleton]
      simp only [hsize] at hleft ⊢
      omega
    · have hfull : min left readChunkSize = readChunkSize := by omega
      rw [hfull, hat.next_eq hmore, List.length_append, List.length_singleton, Nat.mul_succ,
        UInt32.ofNat_add, UInt32.add_assoc]

end Round

/-- A call that ends between two chunks. -/
theorem ReadsOn.stopsOnDeficient (hreads : ReadsOn is4Byte addr total history)
    (err : LibhothError) : StopsOnDeficient is4Byte addr total err history := by
  intro before exchange after hsplit
  obtain ⟨hcall, hfull⟩ := hreads before exchange after hsplit
  exact ⟨hcall, fun hdeficient ↦ absurd hdeficient hfull⟩

/-- An error of a chunk is not a success. -/
theorem ne_success_of_chunkResult {len : ℕ} {call : HostCommand} {reply : HostReply call}
    {status : LibhothError} (hstatus : chunkResult is4Byte len reply = .error status) :
    status ≠ hothSuccess := by
  cases reply with
  | failed err nonzero => exact Except.error.inj hstatus ▸ nonzero
  | accepted response fits =>
    rw [chunkResult] at hstatus
    split_ifs at hstatus
    exact Except.error.inj hstatus ▸ cmdExecStatus_ne_success _

/-- A read stops on a deficient reply, and never leaves its buffer. -/
theorem libhothSpiProxyRead_ensures_stops (is4Byte : Bool) (addr : UInt32) (buf : List UInt8) :
    Ensures recording (libhothSpiProxyRead is4Byte addr buf) [] fun result history ↦
      ∃ err final, result = .ok (err, final) ∧
        StopsOnDeficient is4Byte addr buf.length err history := by
  refine whileDecreasing_ensures (fun state history ↦ state.cbuf + state.len = state.buf.length ∧
    AtChunk is4Byte addr buf.length history state.addr state.len) ?_ _ _ ⟨Nat.zero_add _, .initial⟩
  rintro state history ⟨hbuf, hat⟩
  unfold readRound
  split_ifs with hmore
  · have hpos : 0 < min state.len readChunkSize := Nat.lt_min.mpr ⟨hmore, by decide⟩
    dsimp only
    rw [ensures_bind, ensures_spiReadChunk _ _ hpos]
    rintro reply _ rfl
    cases hresult : chunkResult is4Byte (min state.len readChunkSize) reply with
    | error status =>
      exact (ensures_done _ _ _).mpr ⟨_, _, rfl,
        hat.stopsOnDeficient hmore reply (ne_success_of_chunkResult hresult)⟩
    | ok miso =>
      obtain ⟨hnext, hlength⟩ := hat.snoc hmore reply hresult
      dsimp only
      rw [overwriteWithin_of_le (by omega)]
      refine (ensures_done _ _ _).mpr ⟨?_, hnext⟩
      simp only [List.length_append, List.length_take, List.length_drop]
      omega
  · exact (ensures_done _ _ _).mpr ⟨_, _, rfl, hat.reads.stopsOnDeficient _⟩

/-- A verification stops on a deficient reply. -/
theorem libhothSpiProxyVerify_ensures_stops (is4Byte : Bool) (addr : UInt32) (buf : List UInt8) :
    Ensures recording (libhothSpiProxyVerify is4Byte addr buf) [] fun result history ↦
      ∃ err, result = .ok err ∧ StopsOnDeficient is4Byte addr buf.length err history := by
  refine whileDecreasing_ensures (fun state history ↦
    AtChunk is4Byte addr buf.length history state.addr state.cbuf.length) ?_ _ _ .initial
  intro state history hat
  unfold verifyRound
  split_ifs with hmore
  · have hpos : 0 < min state.cbuf.length readChunkSize := Nat.lt_min.mpr ⟨hmore, by decide⟩
    dsimp only
    rw [ensures_bind, ensures_spiReadChunk _ _ hpos]
    rintro reply _ rfl
    cases hresult : chunkResult is4Byte (min state.cbuf.length readChunkSize) reply with
    | error status =>
      exact (ensures_done _ _ _).mpr ⟨_, rfl,
        hat.stopsOnDeficient hmore reply (ne_success_of_chunkResult hresult)⟩
    | ok readBuf =>
      dsimp only
      split_ifs with hequal
      · exact (ensures_done _ _ _).mpr ⟨_, rfl,
          hat.stopsOnDeficient hmore reply (cmdExecStatus_ne_success _)⟩
      · obtain ⟨hnext, -⟩ := hat.snoc hmore reply hresult
        rw [← List.length_drop] at hnext
        exact (ensures_done _ _ _).mpr hnext
  · exact (ensures_done _ _ _).mpr ⟨_, rfl, hat.reads.stopsOnDeficient _⟩

end AnyDevice

/-! ### A device with a flash -/

/-- A chip goes through the transactions of a request: it sends the bytes that each one asks for and
carries out its command. -/
def Transacts (width : ℕ) : SpiFlash → List SpiTransaction → List (List UInt8) → SpiFlash → Prop
  | device, [], [], final => final = device
  | device, transaction :: transactions, miso :: misos, final =>
    miso.length = transaction.misoLen ∧ MaySend width device.cells transaction.mosi miso ∧
      Transacts width (device.execute (decodeCommand width transaction.mosi)) transactions misos
        final
  | _, _, _, _ => False

/-- The device that carries out the SPI operations of its host command on a flash and answers with
the bytes of the transactions one after the other. -/
def flashDevice (is4Byte : Bool) : Environment HostReply SpiFlash :=
  fun device call reply final ↦ ∃ transactions misos fits,
    call.command = spiOperationCommand ∧ decodeTransactions call.payload = some transactions ∧
      Transacts (addressWidth is4Byte) device transactions misos final ∧
      reply = .accepted misos.flatten fits

section FlashDevice

variable {is4Byte : Bool} {device final : SpiFlash}

/-- The reply of such a device to the command of a chunk has the cells, and the flash is left
alone. -/
theorem chunkResult_of_flashDevice {addr : UInt32} {len : ℕ} (hlen : len ≤ readChunkSize)
    (hfits : addr.toNat < 256 ^ addressWidth is4Byte)
    {reply : HostReply (readCall is4Byte addr len)}
    (hreply : flashDevice is4Byte device (readCall is4Byte addr len) reply final) :
    chunkResult is4Byte len reply = .ok (load device.cells addr.toNat len) ∧ final = device := by
  obtain ⟨transactions, misos, fits, -, hdecode, htransacts, rfl⟩ := hreply
  rw [decodeTransactions_readCall is4Byte addr hlen] at hdecode
  obtain rfl := Option.some.inj hdecode
  match misos, htransacts with
  | [miso], ⟨hlength, hsend, hfinal⟩ =>
    have hother : decodeCommand (addressWidth is4Byte) (readTransaction is4Byte addr len).mosi =
        .other := rfl
    have haddress := littleEndian_addressBytes hfits []
    rw [List.append_nil] at haddress
    have hload := hsend.slice_eq_load hlength
    rw [haddress] at hload
    rw [hother] at hfinal
    refine ⟨?_, hfinal⟩
    have hsize : miso.length = 1 + addressWidth is4Byte + len := hlength
    simp [chunkResult, hsize, hload]

/-- A chunk at an offset is read from the cells. -/
theorem spiReadChunk_ensures_flash {addr current : UInt32} {offset len : ℕ}
    (hcurrent : current = addr + UInt32.ofNat offset)
    (hbelow : addr.toNat + offset < 256 ^ addressWidth is4Byte) (hpos : 0 < len)
    (hlen : len ≤ readChunkSize)
    {post : Except Fault (Except LibhothError (List UInt8)) → SpiFlash → Prop}
    (hpost : post (.ok (.ok (load device.cells (addr.toNat + offset) len))) device) :
    Ensures (flashDevice is4Byte) (spiReadChunk is4Byte current len) device post := by
  have htoNat : current.toNat = addr.toNat + offset := by
    rw [hcurrent]
    exact toNat_add_ofNat_of_lt (hbelow.trans_le (pow_addressWidth_le is4Byte))
  rw [ensures_spiReadChunk _ _ hpos]
  intro reply final hreply
  obtain ⟨hresult, rfl⟩ := chunkResult_of_flashDevice hlen (htoNat ▸ hbelow) hreply
  rw [hresult, htoNat]
  exact hpost

/-- A flash can go through any transactions. -/
theorem exists_transacts (width : ℕ) (device : SpiFlash) (transactions : List SpiTransaction) :
    ∃ misos final, Transacts width device transactions misos final ∧
      misos.flatten.length = (transactions.map SpiTransaction.misoLen).sum := by
  induction transactions generalizing device with
  | nil => exact ⟨[], device, rfl, rfl⟩
  | cons transaction rest ih =>
    obtain ⟨miso, hlength, hsend⟩ :=
      exists_maySend width device.cells transaction.mosi transaction.misoLen
    obtain ⟨misos, final, hrest, htotal⟩ :=
      ih (device.execute (decodeCommand width transaction.mosi))
    refine ⟨miso :: misos, final, ⟨hlength, hsend, hrest⟩, ?_⟩
    rw [List.flatten_cons, List.length_append, hlength, htotal, List.map_cons, List.sum_cons]

/-- The device answers the command of every chunk. -/
theorem exists_flashDevice_readCall (device : SpiFlash) (addr : UInt32) {len : ℕ}
    (hlen : len ≤ readChunkSize) :
    ∃ reply final, flashDevice is4Byte device (readCall is4Byte addr len) reply final := by
  obtain ⟨misos, final, htransacts, hlength⟩ :=
    exists_transacts (addressWidth is4Byte) device [readTransaction is4Byte addr len]
  have hfits : PayloadFits misos.flatten (readCall is4Byte addr len).respBufSize true := by
    have hwidth := addressWidth_le is4Byte
    have hsize : len ≤ 1007 := hlen
    have htotal : ([readTransaction is4Byte addr len].map SpiTransaction.misoLen).sum =
        1 + addressWidth is4Byte + len := by simp [readTransaction]
    change misos.flatten.length ≤ 1016
    omega
  exact ⟨.accepted misos.flatten hfits, final, _, misos, hfits, rfl,
    decodeTransactions_readCall is4Byte addr hlen, htransacts, rfl⟩

/-- A read part way through: the buffer starts with the cells that were read. -/
structure Filled (cells : ℕ → UInt8) (addr : UInt32) (buf : List UInt8) (state : ReadState) :
    Prop where
  total : state.cbuf + state.len = buf.length
  addr_eq : state.addr = addr + UInt32.ofNat state.cbuf
  buf_eq : state.buf = load cells addr.toNat state.cbuf ++ buf.drop state.cbuf

/-- The cells of the next chunk go behind the ones before. -/
theorem Filled.overwriteWithin {cells : ℕ → UInt8} {addr : UInt32} {buf : List UInt8}
    {state : ReadState} (hfilled : Filled cells addr buf state) {count : ℕ}
    (hcount : count ≤ state.len) :
    overwriteWithin state.buf state.cbuf (load cells (addr.toNat + state.cbuf) count) =
      .ok (load cells addr.toNat (state.cbuf + count) ++ buf.drop (state.cbuf + count)) := by
  have htotal := hfilled.total
  have hfront : (load cells addr.toNat state.cbuf).length = state.cbuf := length_load _ _ _
  rw [hfilled.buf_eq, overwriteWithin_of_le, length_load, List.take_left' hfront, ← List.drop_drop,
    List.drop_left' hfront, List.drop_drop, load_add]
  simp only [List.length_append, length_load, List.length_drop]
  omega

/-- A read against a flash fills the buffer with the cells. -/
theorem libhothSpiProxyRead_ensures_flash (addr : UInt32) (buf : List UInt8)
    (hwidth : addr.toNat + buf.length ≤ 256 ^ addressWidth is4Byte) :
    Ensures (flashDevice is4Byte) (libhothSpiProxyRead is4Byte addr buf) device
      fun result final ↦ result = .ok (hothSuccess, load device.cells addr.toNat buf.length) ∧
        final = device := by
  refine whileDecreasing_ensures (fun state now ↦ now = device ∧
    Filled device.cells addr buf state) ?_ _ _
    ⟨rfl, Nat.zero_add _, (UInt32.add_zero addr).symm, rfl⟩
  rintro state _ ⟨rfl, hfilled⟩
  have htotal := hfilled.total
  unfold readRound
  split_ifs with hmore
  · have hpos : 0 < min state.len readChunkSize := Nat.lt_min.mpr ⟨hmore, by decide⟩
    have hbelow : addr.toNat + state.cbuf < 256 ^ addressWidth is4Byte := by omega
    dsimp only
    rw [ensures_bind]
    refine spiReadChunk_ensures_flash hfilled.addr_eq hbelow hpos (Nat.min_le_right _ _) ?_
    dsimp only
    rw [hfilled.overwriteWithin (Nat.min_le_left _ _)]
    refine (ensures_done _ _ _).mpr ⟨rfl, ?_, ?_, rfl⟩
    · dsimp only
      omega
    · dsimp only
      rw [hfilled.addr_eq, UInt32.ofNat_add, UInt32.add_assoc]
  · refine (ensures_done _ _ _).mpr ⟨?_, rfl⟩
    have hdone : state.cbuf = buf.length := by omega
    rw [hfilled.buf_eq, hdone, List.drop_length, List.append_nil]

/-- A read against a flash has a run. -/
theorem libhothSpiProxyRead_admits_flash (addr : UInt32) (buf : List UInt8)
    (hwidth : addr.toNat + buf.length ≤ 256 ^ addressWidth is4Byte) :
    Admits (flashDevice is4Byte) (libhothSpiProxyRead is4Byte addr buf) device
      fun result final ↦ result = .ok (hothSuccess, load device.cells addr.toNat buf.length) ∧
        final = device := by
  have hsome : Admits (flashDevice is4Byte) (libhothSpiProxyRead is4Byte addr buf) device
      fun _ _ ↦ True := by
    refine whileDecreasing_admits (fun _ _ ↦ True) (fun state now _ ↦ ?_) _ _ trivial
    unfold readRound
    split_ifs with hmore
    · have hpos : 0 < min state.len readChunkSize := Nat.lt_min.mpr ⟨hmore, by decide⟩
      obtain ⟨reply, final, hreply⟩ :=
        exists_flashDevice_readCall now state.addr (Nat.min_le_right state.len readChunkSize)
      refine (admits_bind _ _ _ _).mpr (admits_spiReadChunk _ _ hpos hreply ?_)
      cases chunkResult is4Byte (min state.len readChunkSize) reply with
      | error status => exact admits_done trivial
      | ok miso =>
        dsimp only
        cases overwriteWithin state.buf state.cbuf miso <;> exact admits_done trivial
    · exact admits_done trivial
  exact (hsome.and_ensures (libhothSpiProxyRead_ensures_flash addr buf hwidth)).mono
    fun _ _ hend ↦ hend.2

/-- A verification part way through: the data starts with the cells that were read. -/
structure Verified (cells : ℕ → UInt8) (addr : UInt32) (buf : List UInt8) (offset : ℕ)
    (state : VerifyState) : Prop where
  addr_eq : state.addr = addr + UInt32.ofNat offset
  buf_eq : buf = load cells addr.toNat offset ++ state.cbuf

section Verification

variable {cells : ℕ → UInt8} {addr : UInt32} {buf : List UInt8} {offset : ℕ} {state : VerifyState}

theorem Verified.total (hverified : Verified cells addr buf offset state) :
    offset + state.cbuf.length = buf.length := by
  rw [hverified.buf_eq, List.length_append, length_load]

/-- The data is the cells when the rest of it is the rest of the cells. -/
theorem Verified.load_eq_iff (hverified : Verified cells addr buf offset state) :
    load cells addr.toNat buf.length = buf ↔
      load cells (addr.toNat + offset) state.cbuf.length = state.cbuf := by
  have hsplit : load cells addr.toNat buf.length = load cells addr.toNat offset ++
      load cells (addr.toNat + offset) state.cbuf.length := by
    rw [← hverified.total, load_add]
  rw [hsplit]
  conv_lhs => rw [hverified.buf_eq]
  rw [List.append_cancel_left_eq]

/-- A chunk that was read extends the data that starts with the cells. -/
theorem Verified.next (hverified : Verified cells addr buf offset state) {count : ℕ}
    (hequal : state.cbuf.take count = load cells (addr.toNat + offset) count) :
    Verified cells addr buf (offset + count)
      ⟨state.addr + UInt32.ofNat count, state.cbuf.drop count⟩ where
  addr_eq := by
    dsimp only
    rw [hverified.addr_eq, UInt32.ofNat_add, UInt32.add_assoc]
  buf_eq := by
    dsimp only
    rw [load_add, List.append_assoc, ← hequal, List.take_append_drop]
    exact hverified.buf_eq

/-- A chunk that differs shows that the data is not the cells. -/
theorem Verified.load_ne (hverified : Verified cells addr buf offset state) {count : ℕ}
    (hcount : count ≤ state.cbuf.length)
    (hdiffer : state.cbuf.take count ≠ load cells (addr.toNat + offset) count) :
    load cells addr.toNat buf.length ≠ buf := by
  rw [ne_eq, hverified.load_eq_iff]
  intro hequal
  rw [← hequal, show state.cbuf.length = count + (state.cbuf.length - count) by omega, load_add,
    List.take_left' (length_load _ _ _)] at hdiffer
  exact hdiffer rfl

end Verification

/-- A verification against a flash succeeds exactly on the cells. -/
theorem libhothSpiProxyVerify_ensures_flash (addr : UInt32) (buf : List UInt8)
    (hwidth : addr.toNat + buf.length ≤ 256 ^ addressWidth is4Byte) :
    Ensures (flashDevice is4Byte) (libhothSpiProxyVerify is4Byte addr buf) device
      fun result final ↦ ∃ err, result = .ok err ∧
        (err = hothSuccess ↔ load device.cells addr.toNat buf.length = buf) ∧ final = device := by
  refine whileDecreasing_ensures (fun state now ↦ now = device ∧
    ∃ offset, Verified device.cells addr buf offset state) ?_ _ _
    ⟨rfl, 0, (UInt32.add_zero addr).symm, rfl⟩
  rintro state _ ⟨rfl, offset, hverified⟩
  have htotal := hverified.total
  unfold verifyRound
  split_ifs with hmore
  · have hpos : 0 < min state.cbuf.length readChunkSize := Nat.lt_min.mpr ⟨hmore, by decide⟩
    have hbelow : addr.toNat + offset < 256 ^ addressWidth is4Byte := by omega
    dsimp only
    rw [ensures_bind]
    refine spiReadChunk_ensures_flash hverified.addr_eq hbelow hpos (Nat.min_le_right _ _) ?_
    dsimp only
    split_ifs with hequal
    · exact (ensures_done _ _ _).mpr ⟨_, rfl, iff_of_false (cmdExecStatus_ne_success _)
        (hverified.load_ne (Nat.min_le_left _ _) hequal), rfl⟩
    · exact (ensures_done _ _ _).mpr ⟨rfl, _, hverified.next (not_not.mp hequal)⟩
  · refine (ensures_done _ _ _).mpr ⟨_, rfl, iff_of_true rfl (hverified.load_eq_iff.mpr ?_), rfl⟩
    have hempty : state.cbuf = [] := List.eq_nil_of_length_eq_zero (by omega)
    rw [hempty]
    rfl

/-- A verification against a flash has a run. -/
theorem libhothSpiProxyVerify_admits_flash (addr : UInt32) (buf : List UInt8)
    (hwidth : addr.toNat + buf.length ≤ 256 ^ addressWidth is4Byte) :
    Admits (flashDevice is4Byte) (libhothSpiProxyVerify is4Byte addr buf) device
      fun result final ↦ ∃ err, result = .ok err ∧
        (err = hothSuccess ↔ load device.cells addr.toNat buf.length = buf) ∧ final = device := by
  have hsome : Admits (flashDevice is4Byte) (libhothSpiProxyVerify is4Byte addr buf) device
      fun _ _ ↦ True := by
    refine whileDecreasing_admits (fun _ _ ↦ True) (fun state now _ ↦ ?_) _ _ trivial
    unfold verifyRound
    split_ifs with hmore
    · have hpos : 0 < min state.cbuf.length readChunkSize := Nat.lt_min.mpr ⟨hmore, by decide⟩
      obtain ⟨reply, final, hreply⟩ :=
        exists_flashDevice_readCall now state.addr
          (Nat.min_le_right state.cbuf.length readChunkSize)
      refine (admits_bind _ _ _ _).mpr (admits_spiReadChunk _ _ hpos hreply ?_)
      cases chunkResult is4Byte (min state.cbuf.length readChunkSize) reply with
      | error status => exact admits_done trivial
      | ok readBuf =>
        dsimp only
        split_ifs <;> exact admits_done trivial
    · exact admits_done trivial
  exact (hsome.and_ensures (libhothSpiProxyVerify_ensures_flash addr buf hwidth)).mono
    fun _ _ hend ↦ hend.2

end FlashDevice

/-! ### The contract -/

/-- Against a device that carries out the transactions on a flash, a read within the address space
fills the buffer with the cells, and a verification succeeds exactly when the data is the cells.
Against any device, an error or a reply without the whole chunk ends the call with an error. -/
theorem libhothSpiProxyRead_spec (is4Byte : Bool) (addr : UInt32) :
    (∀ (buf : List UInt8) (device final : SpiFlash) result,
      addr.toNat + buf.length ≤ 256 ^ addressWidth is4Byte →
      Runs (flashDevice is4Byte) (libhothSpiProxyRead is4Byte addr buf) device result final →
      result = .ok (hothSuccess, load device.cells addr.toNat buf.length)) ∧
    (∀ (buf : List UInt8) (device final : SpiFlash) result,
      addr.toNat + buf.length ≤ 256 ^ addressWidth is4Byte →
      Runs (flashDevice is4Byte) (libhothSpiProxyVerify is4Byte addr buf) device result final →
      ∃ err, result = .ok err ∧
        (err = hothSuccess ↔ load device.cells addr.toNat buf.length = buf)) ∧
    (∀ (buf : List UInt8) result history,
      Runs recording (libhothSpiProxyRead is4Byte addr buf) [] result history →
      ∃ err final, result = .ok (err, final) ∧
        StopsOnDeficient is4Byte addr buf.length err history) ∧
    (∀ (buf : List UInt8) result history,
      Runs recording (libhothSpiProxyVerify is4Byte addr buf) [] result history →
      ∃ err, result = .ok err ∧ StopsOnDeficient is4Byte addr buf.length err history) := by
  refine ⟨fun buf device final result hwidth hrun ↦ ?_,
    fun buf device final result hwidth hrun ↦ ?_,
    fun buf result history hrun ↦ libhothSpiProxyRead_ensures_stops is4Byte addr buf _ _ hrun,
    fun buf result history hrun ↦ libhothSpiProxyVerify_ensures_stops is4Byte addr buf _ _ hrun⟩
  · exact (libhothSpiProxyRead_ensures_flash addr buf hwidth _ _ hrun).1
  · obtain ⟨err, herr, hiff, -⟩ := libhothSpiProxyVerify_ensures_flash addr buf hwidth _ _ hrun
    exact ⟨err, herr, hiff⟩

/-- A chip whose cells are all `0xA5`. -/
def patternedChip : SpiFlash := ⟨fun _ ↦ 0xA5, false⟩

/-- Two bytes read from that chip. -/
theorem libhothSpiProxyRead_spec_two :
    ∃ result final,
      Runs (flashDevice true) (libhothSpiProxyRead true 0x1000 [0, 0]) patternedChip result final ∧
        result = .ok (hothSuccess, [0xA5, 0xA5]) := by
  have hfits : PayloadFits [0, 0, 0, 0, 0, 0xA5, 0xA5] maxSpiOpPayloadBytes true := by decide
  have hsend : MaySend 4 patternedChip.cells (readTransaction true 0x1000 2).mosi
      [0, 0, 0, 0, 0, 0xA5, 0xA5] := by
    intro rest _ index hindex
    obtain rfl | rfl : index = 0 ∨ index = 1 := by
      simp only [List.length_cons, List.length_nil] at hindex
      omega
    · rfl
    · rfl
  have hanswer : flashDevice true patternedChip (readCall true 0x1000 2)
      (.accepted [0, 0, 0, 0, 0, 0xA5, 0xA5] hfits) patternedChip :=
    ⟨_, [[0, 0, 0, 0, 0, 0xA5, 0xA5]], hfits, rfl,
      decodeTransactions_readCall true 0x1000 (by decide), ⟨rfl, hsend, rfl⟩, rfl⟩
  have hround : Runs (flashDevice true) (readRound true ⟨0x1000, 0, 2, [0, 0]⟩) patternedChip
      (.inl ⟨⟨0x1002, 2, 0, [0xA5, 0xA5]⟩, by decide⟩) patternedChip :=
    ⟨.accepted [0, 0, 0, 0, 0, 0xA5, 0xA5] hfits, patternedChip, hanswer, rfl, rfl⟩
  have hrun : Runs (flashDevice true) (libhothSpiProxyRead true 0x1000 [0, 0]) patternedChip
      (.ok (hothSuccess, [0xA5, 0xA5])) patternedChip :=
    (runs_whileDecreasing _ _ _ _).mpr ⟨_, _, hround,
      (runs_whileDecreasing _ _ _ _).mpr
        ⟨.inr (.ok (hothSuccess, [0xA5, 0xA5])), _, ⟨rfl, rfl⟩, rfl, rfl⟩⟩
  exact ⟨_, _, hrun,
    (libhothSpiProxyRead_spec true 0x1000).1 [0, 0] patternedChip _ _ (by decide) hrun⟩

end Libhoth.Protocol.SpiProxyRead
