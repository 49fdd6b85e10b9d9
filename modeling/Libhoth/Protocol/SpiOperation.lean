import Libhoth.Foundation.CheckedAccess
import Libhoth.Protocol.HostCommandProgram

/-!
# SPI operations

The SPI operation builder of `spi_proxy.c` and the wire format of its host command. A request is a
run of transactions, each a header with the number of bytes to send and to receive followed by the
bytes to send (`SpiTransaction.encode`), and `decodeTransactions` is the device's reading of it.

The builder writes into a fixed buffer and asserts that there is room; a failed assertion is a
`Fault`. `Builds` says that the buffer holds exactly the given transactions, `Opened` that one more
is being written, and `beginTransaction_ok`, `writeMosi_ok`, `endTransaction_ok` carry an operation
between them while there is room. `decodeTransactions_encode` says that the device reads back what
was built.
-/

set_option autoImplicit false
set_option relaxedAutoImplicit false

namespace Libhoth.Protocol.SpiOperation

open Foundation.ByteString Foundation.CheckedAccess Foundation.InteractingProgram
open Status HostCommand HostCommandProgram

/-! ### The builder -/

/-- `struct spi_operation_transaction`, with whether `miso_dest_buf` is not `NULL`. -/
structure SpiOperationTransaction where
  skipMisoNbytes : ℕ
  misoDestBuf : Bool
  misoDestBufLen : ℕ

/-- `MAX_TRANSACTIONS`. -/
def maxTransactions : ℕ := 12

/-- `MAX_SPI_OP_PAYLOAD_BYTES`, the size of the buffer of an operation. -/
def maxSpiOpPayloadBytes : ℕ := 1016

/-- `sizeof(struct hoth_spi_operation_request)`. -/
def spiOperationRequestSize : ℕ := 4

/-- `struct spi_operation`: the first `pos` bytes of the buffer, the place of the header of the
transaction being written, and the ended transactions. A header is zero until its transaction
ends. -/
structure Operation where
  buf : List UInt8
  headerOffset : ℕ
  transactions : List SpiOperationTransaction

/-- `spi_operation_init`. -/
def spiOperationInit : Operation where
  buf := []
  headerOffset := 0
  transactions := []

/-- `spi_operation_begin_transaction`. -/
def spiOperationBeginTransaction (op : Operation) : Except Fault Operation :=
  if op.transactions.length < maxTransactions ∧
      op.buf.length + spiOperationRequestSize < maxSpiOpPayloadBytes then
    return { op with
      buf := op.buf ++ List.replicate spiOperationRequestSize 0
      headerOffset := op.buf.length }
  else throw .assertionFailed

/-- `spi_operation_write_mosi`. -/
def spiOperationWriteMosi (op : Operation) (mosi : List UInt8) : Except Fault Operation :=
  if op.buf.length + mosi.length < maxSpiOpPayloadBytes then
    return { op with buf := op.buf ++ mosi }
  else throw .assertionFailed

/-- `spi_operation_write_mosi_address`: the address with its most significant byte first. -/
def spiOperationWriteMosiAddress (op : Operation) (is4Byte : Bool) (addr : UInt32) :
    Except Fault Operation :=
  spiOperationWriteMosi op (toLittleEndian (if is4Byte then 4 else 3) addr.toNat).reverse

/-- `spi_operation_read_miso_and_end_transaction`. -/
def spiOperationReadMisoAndEndTransaction (op : Operation) (misoDestBuf : Bool)
    (misoDestBufLen : ℕ) : Except Fault Operation :=
  if op.transactions.length < maxTransactions then
    let mosiLen := op.buf.length - op.headerOffset - spiOperationRequestSize
    let misoLen := if misoDestBufLen > 0 then mosiLen + misoDestBufLen else 0
    return { op with
      buf := op.buf.take op.headerOffset ++ (toLittleEndian 2 mosiLen ++ toLittleEndian 2 misoLen) ++
        op.buf.drop (op.headerOffset + spiOperationRequestSize)
      transactions := op.transactions ++ [⟨mosiLen, misoDestBuf, misoDestBufLen⟩] }
  else throw .assertionFailed

/-- `spi_operation_end_transaction`. -/
def spiOperationEndTransaction (op : Operation) : Except Fault Operation :=
  spiOperationReadMisoAndEndTransaction op false 0

/-! ### Execution -/

/-- The loop of `spi_operation_execute` over the transactions: the bytes copied into each
destination, or `none` when the response is shorter than expected. -/
def spiOperationCopyMiso (response : List UInt8) :
    List SpiOperationTransaction → ℕ → Option (List (List UInt8))
  | [], _ => some []
  | transaction :: rest, pos =>
    let skip := transaction.skipMisoNbytes
    let len := transaction.misoDestBufLen
    if len > 0 ∧ pos + len + skip > response.length then none
    else do
      let copied := if len > 0 ∧ transaction.misoDestBuf then [slice response (pos + skip) len] else []
      let later ← spiOperationCopyMiso response rest (pos + (skip + len))
      return copied ++ later

/-- `HOTH_CMD_BOARD_SPECIFIC_BASE + HOTH_PRV_CMD_HOTH_SPI_OPERATION`. -/
def spiOperationCommand : ℕ := hothCmdBoardSpecificBase + 0x0020

/-- The host command of `spi_operation_execute`. -/
def spiOperationCall (op : Operation) : HostCommand where
  command := spiOperationCommand
  version := 0
  payload := op.buf
  respBufSize := maxSpiOpPayloadBytes
  sized := true

/-- `spi_operation_execute`. -/
def spiOperationExecute (op : Operation) :
    HostProgram (Except LibhothError (List (List UInt8))) := do
  match ← hostcmdExec (spiOperationCall op) with
  | .failed status _ => return .error status
  | .accepted response _ =>
    match spiOperationCopyMiso response op.transactions 0 with
    | none => return .error (cmdExecStatus .fail)
    | some copied => return .ok copied

/-! ### The wire format -/

/-- One SPI transaction: the bytes sent and the number of bytes asked for. -/
structure SpiTransaction where
  mosi : List UInt8
  misoLen : ℕ
  deriving DecidableEq

/-- `struct hoth_spi_operation_request` and the bytes after it. -/
def SpiTransaction.encode (transaction : SpiTransaction) : List UInt8 :=
  toLittleEndian 2 transaction.mosi.length ++ toLittleEndian 2 transaction.misoLen ++
    transaction.mosi

theorem SpiTransaction.length_encode (transaction : SpiTransaction) :
    transaction.encode.length = spiOperationRequestSize + transaction.mosi.length := by
  simp [SpiTransaction.encode, spiOperationRequestSize]
  omega

/-- The payload of a list of transactions. -/
def encodeTransactions (transactions : List SpiTransaction) : List UInt8 :=
  transactions.flatMap SpiTransaction.encode

/-- The transactions of a payload, laid out back to back. -/
def decodeTransactions (payload : List UInt8) : Option (List SpiTransaction) :=
  if payload = [] then some []
  else if _ : spiOperationRequestSize + wordAt payload 0 2 ≤ payload.length then do
    let rest ← decodeTransactions (payload.drop (spiOperationRequestSize + wordAt payload 0 2))
    return ⟨slice payload spiOperationRequestSize (wordAt payload 0 2), wordAt payload 2 2⟩ :: rest
  else none
termination_by payload.length
decreasing_by
  simp only [List.length_drop, spiOperationRequestSize] at *
  omega

/-- The device reads back the transactions that were laid out. -/
theorem decodeTransactions_encode (transactions : List SpiTransaction)
    (hfits : ∀ transaction ∈ transactions,
      transaction.mosi.length < 2 ^ 16 ∧ transaction.misoLen < 2 ^ 16) :
    decodeTransactions (encodeTransactions transactions) = some transactions := by
  induction transactions with
  | nil =>
    rw [decodeTransactions]
    rfl
  | cons transaction rest ih =>
    obtain ⟨hmosi, hmiso⟩ := hfits transaction List.mem_cons_self
    have hrest := ih fun other hmem ↦ hfits other (List.mem_cons_of_mem _ hmem)
    have hpayload : encodeTransactions (transaction :: rest) =
        toLittleEndian 2 transaction.mosi.length ++ (toLittleEndian 2 transaction.misoLen ++
          (transaction.mosi ++ encodeTransactions rest)) := by
      simp [encodeTransactions, SpiTransaction.encode]
    have hmosiLen : wordAt (encodeTransactions (transaction :: rest)) 0 2 =
        transaction.mosi.length := by
      rw [wordAt, slice, hpayload, List.drop_zero, List.take_left' (length_toLittleEndian _ _)]
      exact littleEndian_toLittleEndian_of_lt hmosi
    have hmisoLen : wordAt (encodeTransactions (transaction :: rest)) 2 2 =
        transaction.misoLen := by
      rw [wordAt, slice, hpayload, List.drop_left' (length_toLittleEndian _ _),
        List.take_left' (length_toLittleEndian _ _)]
      exact littleEndian_toLittleEndian_of_lt hmiso
    have hbody : (encodeTransactions (transaction :: rest)).drop spiOperationRequestSize =
        transaction.mosi ++ encodeTransactions rest := by
      rw [hpayload, ← List.append_assoc, List.drop_left' (by simp [spiOperationRequestSize])]
    have hlength : (encodeTransactions (transaction :: rest)).length =
        spiOperationRequestSize + (transaction.mosi.length + (encodeTransactions rest).length) := by
      rw [hpayload]
      simp only [List.length_append, length_toLittleEndian, spiOperationRequestSize]
      omega
    have hne : encodeTransactions (transaction :: rest) ≠ [] := by
      intro hnil
      rw [hnil] at hlength
      simp [spiOperationRequestSize] at hlength
      omega
    rw [decodeTransactions, if_neg hne, hmosiLen, dif_pos (by omega), hmisoLen, slice,
      ← List.drop_drop, hbody, List.drop_left' rfl, List.take_left' rfl, hrest]
    rfl

/-! ### What the builder builds -/

/-- An operation between transactions, whose buffer holds exactly the given ones. -/
structure Builds (op : Operation) (transactions : List SpiTransaction) : Prop where
  buf : op.buf = encodeTransactions transactions
  ended : op.transactions.length = transactions.length

/-- An operation within a transaction, of which the given bytes were written. -/
structure Opened (op : Operation) (transactions : List SpiTransaction) (mosi : List UInt8) :
    Prop where
  buf : op.buf = encodeTransactions transactions ++ List.replicate spiOperationRequestSize 0 ++ mosi
  headerOffset : op.headerOffset = (encodeTransactions transactions).length
  ended : op.transactions.length = transactions.length

theorem Builds.init : Builds spiOperationInit [] where
  buf := rfl
  ended := rfl

variable {op : Operation} {transactions : List SpiTransaction} {mosi : List UInt8}

theorem Opened.length (hopened : Opened op transactions mosi) :
    op.buf.length =
      (encodeTransactions transactions).length + spiOperationRequestSize + mosi.length := by
  rw [hopened.buf]
  simp only [List.length_append, List.length_replicate]

/-- Beginning a transaction while there is room. -/
theorem beginTransaction_ok (hbuilds : Builds op transactions)
    (hcount : transactions.length < maxTransactions)
    (hroom : (encodeTransactions transactions).length + spiOperationRequestSize <
      maxSpiOpPayloadBytes) :
    ∃ next, spiOperationBeginTransaction op = .ok next ∧ Opened next transactions [] := by
  have hguard : op.transactions.length < maxTransactions ∧
      op.buf.length + spiOperationRequestSize < maxSpiOpPayloadBytes := by
    rw [hbuilds.ended, hbuilds.buf]
    exact ⟨hcount, hroom⟩
  refine ⟨_, if_pos hguard, ?_, ?_, hbuilds.ended⟩
  · simp [hbuilds.buf]
  · simp [hbuilds.buf]

/-- Writing bytes of a transaction while there is room. -/
theorem writeMosi_ok (hopened : Opened op transactions mosi) (bytes : List UInt8)
    (hroom : (encodeTransactions transactions).length + spiOperationRequestSize + mosi.length +
      bytes.length < maxSpiOpPayloadBytes) :
    ∃ next, spiOperationWriteMosi op bytes = .ok next ∧
      Opened next transactions (mosi ++ bytes) := by
  have hguard : op.buf.length + bytes.length < maxSpiOpPayloadBytes := by
    rw [hopened.length]
    exact hroom
  refine ⟨_, if_pos hguard, ?_, hopened.headerOffset, hopened.ended⟩
  simp [hopened.buf]

/-- Ending a transaction writes its header and records what to read. -/
theorem readMisoAndEndTransaction_ok (hopened : Opened op transactions mosi)
    (hcount : transactions.length < maxTransactions) (misoDestBuf : Bool) (misoDestBufLen : ℕ) :
    ∃ next, spiOperationReadMisoAndEndTransaction op misoDestBuf misoDestBufLen = .ok next ∧
      Builds next (transactions ++
        [⟨mosi, if misoDestBufLen > 0 then mosi.length + misoDestBufLen else 0⟩]) ∧
      next.transactions = op.transactions ++ [⟨mosi.length, misoDestBuf, misoDestBufLen⟩] := by
  have hguard : op.transactions.length < maxTransactions := by
    rw [hopened.ended]
    exact hcount
  have hmosi : op.buf.length - op.headerOffset - spiOperationRequestSize = mosi.length := by
    rw [hopened.length, hopened.headerOffset]
    omega
  have hbeginning : op.buf.take op.headerOffset = encodeTransactions transactions := by
    rw [hopened.buf, hopened.headerOffset, List.append_assoc, List.take_left' rfl]
  have hsuffix : op.buf.drop (op.headerOffset + spiOperationRequestSize) = mosi := by
    rw [hopened.buf, hopened.headerOffset, List.drop_left' (by simp)]
  refine ⟨_, if_pos hguard, ⟨?_, ?_⟩, ?_⟩
  · simp only [hmosi, hbeginning, hsuffix]
    simp [encodeTransactions, SpiTransaction.encode]
  · simp [hopened.ended]
  · rw [hmosi]

/-- Ending a transaction that reads nothing. -/
theorem endTransaction_ok (hopened : Opened op transactions mosi)
    (hcount : transactions.length < maxTransactions) :
    ∃ next, spiOperationEndTransaction op = .ok next ∧
      Builds next (transactions ++ [⟨mosi, 0⟩]) := by
  obtain ⟨next, hnext, hbuilds, -⟩ := readMisoAndEndTransaction_ok hopened hcount false 0
  exact ⟨next, hnext, hbuilds⟩

/-- Beginning a transaction records nothing yet. -/
theorem beginTransaction_transactions {next : Operation}
    (hnext : spiOperationBeginTransaction op = .ok next) : next.transactions = op.transactions := by
  rw [spiOperationBeginTransaction] at hnext
  split_ifs at hnext
  obtain rfl := Except.ok.inj hnext
  rfl

/-- Writing bytes records nothing yet. -/
theorem writeMosi_transactions {bytes : List UInt8} {next : Operation}
    (hnext : spiOperationWriteMosi op bytes = .ok next) : next.transactions = op.transactions := by
  rw [spiOperationWriteMosi] at hnext
  split_ifs at hnext
  obtain rfl := Except.ok.inj hnext
  rfl

end Libhoth.Protocol.SpiOperation
