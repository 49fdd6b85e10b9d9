import Libhoth.Protocol.SpiOperation
import Mathlib.Algebra.Order.BigOperators.Group.List

/-!
# The round trip of an SPI operation

An operation is built from transactions, each with the bytes that it writes and the number of bytes
that it reads. The device must read the same transactions out of the buffer, and every reader must
get the bytes of its own transaction out of the response. `RoundTrips` says both.

The builder refuses to fill the buffer completely, the header keeps sixteen bits of each length, and
the loop over the response moves on by the written bytes of a transaction that the device answers
with nothing. `roundTrips_iff` says that these are the only obstacles.
-/

set_option autoImplicit false
set_option relaxedAutoImplicit false

namespace Libhoth.Protocol.SpiOperationRoundTrip

open Foundation.ByteString Foundation.CheckedAccess Foundation.InteractingProgram
open Status HostCommand HostCommandProgram SpiOperation

/-! ### Transactions as a caller makes them -/

/-- The calls between the beginning and the end of a transaction: the bytes of each write, and the
number of bytes to read after them. -/
structure MosiMisoTransaction where
  writes : List (List UInt8)
  readLen : ℕ
  deriving DecidableEq

namespace MosiMisoTransaction

/-- The bytes that a transaction sends. -/
def mosi (transaction : MosiMisoTransaction) : List UInt8 :=
  transaction.writes.flatten

/-- The transaction as the device is to see it. -/
def wire (transaction : MosiMisoTransaction) : SpiTransaction where
  mosi := transaction.mosi
  misoLen := if transaction.readLen = 0 then 0 else transaction.mosi.length + transaction.readLen

/-- What the operation records of a transaction. -/
def record (transaction : MosiMisoTransaction) : SpiOperationTransaction where
  skipMisoNbytes := transaction.mosi.length
  misoDestBuf := 0 < transaction.readLen
  misoDestBufLen := transaction.readLen

end MosiMisoTransaction

/-- The calls that add a transaction to an operation. -/
def buildTransaction (op : Operation) (transaction : MosiMisoTransaction) :
    Except Fault Operation := do
  let op ← spiOperationBeginTransaction op
  let op ← transaction.writes.foldlM spiOperationWriteMosi op
  if 0 < transaction.readLen then
    spiOperationReadMisoAndEndTransaction op true transaction.readLen
  else spiOperationEndTransaction op

/-- The calls that build an operation. -/
def buildOperation (transactions : List MosiMisoTransaction) : Except Fault Operation :=
  transactions.foldlM buildTransaction spiOperationInit

/-- The wire format of an operation. -/
def encoding (transactions : List MosiMisoTransaction) : List UInt8 :=
  encodeTransactions (transactions.map MosiMisoTransaction.wire)

/-- The bytes that the reader of a transaction is to get from its part of the response. -/
def ownBytes (transaction : MosiMisoTransaction) (part : List UInt8) : List (List UInt8) :=
  if transaction.readLen = 0 then []
  else [slice part transaction.mosi.length transaction.readLen]

/-- The bytes that all readers are to get, in order. -/
def allOwnBytes (transactions : List MosiMisoTransaction) (parts : List (List UInt8)) :
    List (List UInt8) :=
  (List.zipWith ownBytes transactions parts).flatten

/-- Whenever the device answers with the parts of the transactions one after the other, the
execution succeeds and every reader gets the bytes of its own part. -/
def DeliversOwnBytes (op : Operation) (transactions : List MosiMisoTransaction) : Prop :=
  ∀ (parts : List (List UInt8)) (hfits : PayloadFits parts.flatten maxSpiOpPayloadBytes true),
    parts.map List.length = transactions.map (fun transaction ↦ transaction.wire.misoLen) →
    Runs recording (spiOperationExecute op) [] (.ok (allOwnBytes transactions parts))
      [⟨spiOperationCall op, .accepted parts.flatten hfits⟩]

/-- The transactions can be built, the device reads them back, and their readers are served. -/
def RoundTrips (transactions : List MosiMisoTransaction) : Prop :=
  ∃ op, buildOperation transactions = .ok op ∧
    decodeTransactions op.buf = some (transactions.map MosiMisoTransaction.wire) ∧
    DeliversOwnBytes op transactions

/-! ### Building -/

/-- An operation that holds exactly the given transactions and their records. -/
structure Built (op : Operation) (transactions : List MosiMisoTransaction) : Prop where
  builds : Builds op (transactions.map MosiMisoTransaction.wire)
  records : op.transactions = transactions.map MosiMisoTransaction.record

theorem Built.init : Built spiOperationInit [] where
  builds := Builds.init
  records := rfl

theorem length_encoding_snoc (transactions : List MosiMisoTransaction)
    (transaction : MosiMisoTransaction) :
    (encoding (transactions ++ [transaction])).length =
      (encoding transactions).length + spiOperationRequestSize + transaction.mosi.length := by
  simp [encoding, encodeTransactions, SpiTransaction.length_encode, MosiMisoTransaction.wire]
  omega

section Building

variable {op : Operation} {transactions : List SpiTransaction} {mosi : List UInt8}

/-- The writes of a transaction while there is room. -/
theorem writes_ok (writes : List (List UInt8)) (hopened : Opened op transactions mosi)
    (hroom : (encodeTransactions transactions).length + spiOperationRequestSize + mosi.length +
      writes.flatten.length < maxSpiOpPayloadBytes) :
    ∃ next, writes.foldlM spiOperationWriteMosi op = .ok next ∧
      Opened next transactions (mosi ++ writes.flatten) ∧ next.transactions = op.transactions := by
  induction writes generalizing op mosi with
  | nil => exact ⟨op, rfl, by simpa using hopened, rfl⟩
  | cons bytes rest ih =>
    rw [List.flatten_cons, List.length_append] at hroom
    obtain ⟨next, hnext, hwritten⟩ := writeMosi_ok hopened bytes (by omega)
    obtain ⟨last, hlast, hall, hrecords⟩ := ih hwritten (by rw [List.length_append]; omega)
    refine ⟨last, ?_, by simpa using hall, hrecords.trans (writeMosi_transactions hnext)⟩
    rw [List.foldlM_cons, hnext, ok_bind, hlast]

/-- The writes of a transaction fail when they would fill the buffer. -/
theorem writes_fault (writes : List (List UInt8)) (hopened : Opened op transactions mosi)
    (hsome : writes ≠ [])
    (hfull : maxSpiOpPayloadBytes ≤ (encodeTransactions transactions).length +
      spiOperationRequestSize + mosi.length + writes.flatten.length) :
    writes.foldlM spiOperationWriteMosi op = .error .assertionFailed := by
  induction writes generalizing op mosi with
  | nil => exact absurd rfl hsome
  | cons bytes rest ih =>
    rw [List.flatten_cons, List.length_append] at hfull
    rw [List.foldlM_cons]
    by_cases hroom : op.buf.length + bytes.length < maxSpiOpPayloadBytes
    · rw [hopened.length] at hroom
      obtain ⟨next, hnext, hwritten⟩ := writeMosi_ok hopened bytes hroom
      have hrest : rest ≠ [] := by
        rintro rfl
        simp only [List.flatten_nil, List.length_nil] at hfull
        omega
      rw [hnext, ok_bind]
      exact ih hwritten hrest (by rw [List.length_append]; omega)
    · rw [spiOperationWriteMosi, if_neg hroom]
      rfl

end Building

section Operations

variable {op : Operation} {transactions : List MosiMisoTransaction}
  {transaction : MosiMisoTransaction}

theorem Built.begin_ok (hbuilt : Built op transactions)
    (hcount : transactions.length < maxTransactions)
    (hroom : (encoding transactions).length + spiOperationRequestSize < maxSpiOpPayloadBytes) :
    ∃ next, spiOperationBeginTransaction op = .ok next ∧
      Opened next (transactions.map MosiMisoTransaction.wire) [] ∧
      next.transactions = op.transactions := by
  obtain ⟨next, hnext, hopened⟩ := beginTransaction_ok hbuilt.builds
    (by rw [List.length_map]; exact hcount) hroom
  exact ⟨next, hnext, hopened, beginTransaction_transactions hnext⟩

/-- A transaction with room to spare is added. -/
theorem buildTransaction_ok (hbuilt : Built op transactions)
    (hcount : transactions.length < maxTransactions)
    (hroom : (encoding (transactions ++ [transaction])).length < maxSpiOpPayloadBytes) :
    ∃ next, buildTransaction op transaction = .ok next ∧
      Built next (transactions ++ [transaction]) := by
  rw [length_encoding_snoc] at hroom
  obtain ⟨begun, hbegun, hopened, hbegunRecords⟩ := hbuilt.begin_ok hcount (by omega)
  obtain ⟨written, hwritten, hall, hwrittenRecords⟩ :=
    writes_ok transaction.writes hopened hroom
  have hcountWire : (transactions.map MosiMisoTransaction.wire).length < maxTransactions := by
    rw [List.length_map]
    exact hcount
  rw [List.nil_append] at hall
  obtain ⟨next, hnext, hbuilds, hrecords⟩ := readMisoAndEndTransaction_ok hall hcountWire
    (decide (0 < transaction.readLen)) transaction.readLen
  have hended : buildTransaction op transaction = .ok next := by
    rw [buildTransaction, hbegun, ok_bind, hwritten, ok_bind, ← hnext]
    by_cases hread : 0 < transaction.readLen
    · rw [if_pos hread, decide_eq_true hread]
    · rw [if_neg hread, decide_eq_false hread, Nat.eq_zero_of_not_pos hread]
      rfl
  refine ⟨next, hended, ?_, ?_⟩
  · have hmiso : (if transaction.readLen > 0 then transaction.mosi.length + transaction.readLen
        else 0) = transaction.wire.misoLen := by
      by_cases hread : transaction.readLen = 0 <;>
        simp [MosiMisoTransaction.wire, hread, Nat.pos_iff_ne_zero]
    rw [List.map_append, List.map_singleton]
    rw [← MosiMisoTransaction.mosi, hmiso] at hbuilds
    exact hbuilds
  · rw [hrecords, hwrittenRecords, hbegunRecords, hbuilt.records, List.map_append]
    rfl

/-- A transaction that would fill the buffer is refused. -/
theorem buildTransaction_fault (hbuilt : Built op transactions)
    (hcount : transactions.length < maxTransactions) (hmosi : transaction.mosi ≠ [])
    (hfull : maxSpiOpPayloadBytes ≤ (encoding (transactions ++ [transaction])).length) :
    buildTransaction op transaction = .error .assertionFailed := by
  rw [length_encoding_snoc] at hfull
  have hwrites : transaction.writes ≠ [] := by
    intro hnone
    rw [MosiMisoTransaction.mosi, hnone] at hmosi
    exact hmosi rfl
  rw [buildTransaction]
  by_cases hroom :
      (encoding transactions).length + spiOperationRequestSize < maxSpiOpPayloadBytes
  · obtain ⟨begun, hbegun, hopened, -⟩ := hbuilt.begin_ok hcount hroom
    rw [hbegun, ok_bind, writes_fault transaction.writes hopened hwrites hfull]
    rfl
  · have hrefused : ¬(op.transactions.length < maxTransactions ∧
        op.buf.length + spiOperationRequestSize < maxSpiOpPayloadBytes) := by
      rw [hbuilt.builds.buf]
      exact fun hboth ↦ hroom hboth.2
    rw [spiOperationBeginTransaction, if_neg hrefused]
    rfl

end Operations

theorem buildOperation_snoc (transactions : List MosiMisoTransaction)
    (transaction : MosiMisoTransaction) :
    buildOperation (transactions ++ [transaction]) =
      buildOperation transactions >>= fun op ↦ buildTransaction op transaction := by
  rw [buildOperation, buildOperation, List.foldlM_append]
  simp only [List.foldlM_cons, List.foldlM_nil, bind_pure]

/-- Transactions with room to spare can be built. -/
theorem buildOperation_ok (transactions : List MosiMisoTransaction)
    (hcount : transactions.length ≤ maxTransactions)
    (hroom : (encoding transactions).length < maxSpiOpPayloadBytes) :
    ∃ op, buildOperation transactions = .ok op ∧ Built op transactions := by
  induction transactions using List.reverseRecOn with
  | nil => exact ⟨spiOperationInit, rfl, Built.init⟩
  | append_singleton transactions transaction ih =>
    rw [List.length_append, List.length_singleton] at hcount
    obtain ⟨op, hop, hbuilt⟩ := ih (by omega) (by rw [length_encoding_snoc] at hroom; omega)
    obtain ⟨next, hnext, hlast⟩ := buildTransaction_ok hbuilt (by omega) hroom
    exact ⟨next, by rw [buildOperation_snoc, hop, ok_bind, hnext], hlast⟩

/-- Transactions that would fill the buffer are refused. -/
theorem buildOperation_fault (transactions : List MosiMisoTransaction)
    (hcount : transactions.length ≤ maxTransactions)
    (hmosi : ∀ transaction ∈ transactions, transaction.mosi ≠ [])
    (hfull : maxSpiOpPayloadBytes ≤ (encoding transactions).length) :
    buildOperation transactions = .error .assertionFailed := by
  induction transactions using List.reverseRecOn with
  | nil => exact absurd hfull (by decide)
  | append_singleton transactions transaction ih =>
    rw [List.length_append, List.length_singleton] at hcount
    rw [buildOperation_snoc]
    by_cases hroom : (encoding transactions).length < maxSpiOpPayloadBytes
    · obtain ⟨op, hop, hbuilt⟩ := buildOperation_ok transactions (by omega) hroom
      rw [hop, ok_bind]
      exact buildTransaction_fault hbuilt (by omega) (hmosi transaction (by simp)) hfull
    · rw [ih (by omega) (fun other hother ↦ hmosi other (by simp [hother])) (by omega)]
      rfl

/-! ### Reading back -/

/-- The device reads sixteen bits of each length. -/
theorem misoLen_lt_of_decode {payload : List UInt8} {transactions : List SpiTransaction}
    (hdecode : decodeTransactions payload = some transactions) :
    ∀ transaction ∈ transactions, transaction.misoLen < 2 ^ 16 := by
  induction payload using decodeTransactions.induct generalizing transactions with
  | case1 =>
    rw [decodeTransactions, if_pos rfl] at hdecode
    obtain rfl := Option.some.inj hdecode
    simp
  | case2 payload hne hlength ih =>
    rw [decodeTransactions, if_neg hne, dif_pos hlength] at hdecode
    obtain ⟨rest, hrest, hall⟩ := Option.bind_eq_some_iff.mp hdecode
    obtain rfl := Option.some.inj hall
    intro transaction hmem
    rcases List.mem_cons.mp hmem with rfl | hlater
    · exact wordAt_lt payload 2 2
    · exact ih hrest transaction hlater
  | case3 payload hne hlength =>
    rw [decodeTransactions, if_neg hne, dif_neg hlength] at hdecode
    exact absurd hdecode.symm (Option.some_ne_none _)

/-! ### The loop over the response -/

/-- What the execution returns for a response that the device accepted. -/
theorem runs_spiOperationExecute (op : Operation) (response : List UInt8)
    (hfits : PayloadFits response maxSpiOpPayloadBytes true) :
    Runs recording (spiOperationExecute op) []
      (match spiOperationCopyMiso response op.transactions 0 with
        | none => .error (cmdExecStatus .fail)
        | some copied => .ok copied)
      [⟨spiOperationCall op, .accepted response hfits⟩] := by
  rw [spiOperationExecute, runs_bind]
  refine ⟨.accepted response hfits, _, (runs_request _ _ _ _).mpr rfl, ?_⟩
  cases hcopied : spiOperationCopyMiso response op.transactions 0 with
  | none =>
    simp only [hcopied, pure_eq_done, runs_done]
    exact ⟨trivial, rfl⟩
  | some copied =>
    simp only [hcopied, pure_eq_done, runs_done]
    exact ⟨trivial, rfl⟩

/-- The execution serves the readers exactly when the loop over the response does. -/
theorem runs_spiOperationExecute_ok_iff (op : Operation) (response : List UInt8)
    (hfits : PayloadFits response maxSpiOpPayloadBytes true) (copied : List (List UInt8)) :
    Runs recording (spiOperationExecute op) [] (.ok copied)
        [⟨spiOperationCall op, .accepted response hfits⟩] ↔
      spiOperationCopyMiso response op.transactions 0 = some copied := by
  have hresult := runs_spiOperationExecute op response hfits
  constructor
  · intro hrun
    have hsame := hrun.recording_unique hresult
    cases hcopied : spiOperationCopyMiso response op.transactions 0 with
    | none =>
      rw [hcopied] at hsame
      cases hsame
    | some other =>
      rw [hcopied] at hsame
      rw [Except.ok.inj hsame]
  · intro hcopied
    rw [hcopied] at hresult
    exact hresult

/-- One transaction of the loop: the reader gets what it would get if its part of the response began
at the position of the loop. -/
theorem spiOperationCopyMiso_cons (response : List UInt8) (transaction : MosiMisoTransaction)
    (rest : List SpiOperationTransaction) (pos : ℕ) :
    spiOperationCopyMiso response (transaction.record :: rest) pos =
      if 0 < transaction.readLen ∧
          response.length < pos + transaction.readLen + transaction.mosi.length then none
      else (spiOperationCopyMiso response rest
        (pos + (transaction.mosi.length + transaction.readLen))).map
          (ownBytes transaction (response.drop pos) ++ ·) := by
  have hbytes : (if 0 < transaction.readLen ∧ decide (0 < transaction.readLen) = true then
      [slice response (pos + transaction.mosi.length) transaction.readLen] else []) =
        ownBytes transaction (response.drop pos) := by
    by_cases hread : transaction.readLen = 0
    · simp [ownBytes, hread]
    · simp [ownBytes, hread, slice, Nat.pos_of_ne_zero hread]
  rw [spiOperationCopyMiso]
  simp only [MosiMisoTransaction.record, gt_iff_lt]
  rw [hbytes]
  by_cases hshort : 0 < transaction.readLen ∧
      response.length < pos + transaction.readLen + transaction.mosi.length
  · rw [if_pos hshort, if_pos hshort]
  · rw [if_neg hshort, if_neg hshort]
    cases spiOperationCopyMiso response rest
      (pos + (transaction.mosi.length + transaction.readLen)) <;> rfl

/-- The parts of the response as the loop sees them: everything from its position on. -/
def seenParts (response : List UInt8) : List MosiMisoTransaction → ℕ → List (List UInt8)
  | [], _ => []
  | transaction :: rest, pos =>
    response.drop pos ::
      seenParts response rest (pos + (transaction.mosi.length + transaction.readLen))

/-- When the loop succeeds, every reader gets the bytes of the part that the loop saw. -/
theorem copied_eq_of_copyMiso {response : List UInt8} (transactions : List MosiMisoTransaction)
    {pos : ℕ} {copied : List (List UInt8)}
    (hcopied : spiOperationCopyMiso response (transactions.map MosiMisoTransaction.record) pos =
      some copied) :
    copied = allOwnBytes transactions (seenParts response transactions pos) := by
  induction transactions generalizing pos copied with
  | nil => exact (Option.some.inj hcopied).symm
  | cons transaction rest ih =>
    rw [List.map_cons, spiOperationCopyMiso_cons] at hcopied
    split_ifs at hcopied
    obtain ⟨later, hlater, rfl⟩ := Option.map_eq_some_iff.mp hcopied
    rw [ih hlater]
    rfl

theorem allOwnBytes_cons (transaction : MosiMisoTransaction) (rest : List MosiMisoTransaction)
    (part : List UInt8) (later : List (List UInt8)) :
    allOwnBytes (transaction :: rest) (part :: later) =
      ownBytes transaction part ++ allOwnBytes rest later :=
  rfl

theorem allOwnBytes_of_silent (transactions : List MosiMisoTransaction)
    (hsilent : ∀ transaction ∈ transactions, transaction.readLen = 0)
    (parts : List (List UInt8)) : allOwnBytes transactions parts = [] := by
  induction transactions generalizing parts with
  | nil => rfl
  | cons transaction rest ih =>
    cases parts with
    | nil => rfl
    | cons part later =>
      rw [allOwnBytes_cons, ownBytes, if_pos (hsilent transaction List.mem_cons_self),
        ih (fun other hother ↦ hsilent other (List.mem_cons_of_mem _ hother)), List.nil_append]

/-- Transactions that read nothing are passed wherever the loop stands. -/
theorem copyMiso_silent (response : List UInt8) (transactions : List MosiMisoTransaction)
    (hsilent : ∀ transaction ∈ transactions, transaction.readLen = 0) (pos : ℕ) :
    spiOperationCopyMiso response (transactions.map MosiMisoTransaction.record) pos = some [] := by
  induction transactions generalizing pos with
  | nil => rfl
  | cons transaction rest ih =>
    have hread := hsilent transaction List.mem_cons_self
    have hrest := ih fun other hother ↦ hsilent other (List.mem_cons_of_mem _ hother)
    rw [List.map_cons, spiOperationCopyMiso_cons, if_neg (by omega), hrest, ownBytes,
      if_pos hread]
    rfl

/-- The loop serves every reader as long as no transaction that reads nothing comes before one that
does. -/
theorem copyMiso_aligned (transactions : List MosiMisoTransaction) (parts : List (List UInt8))
    (hlengths : parts.map List.length =
      transactions.map (fun transaction ↦ transaction.wire.misoLen))
    (horder : transactions.Pairwise fun earlier later ↦ 0 < later.readLen → 0 < earlier.readLen)
    (before : List UInt8) :
    spiOperationCopyMiso (before ++ parts.flatten)
      (transactions.map MosiMisoTransaction.record) before.length =
      some (allOwnBytes transactions parts) := by
  induction transactions generalizing parts before with
  | nil => rfl
  | cons transaction rest ih =>
    obtain ⟨hfirst, hrest⟩ := List.pairwise_cons.mp horder
    by_cases hread : transaction.readLen = 0
    · have hsilent : ∀ other ∈ transaction :: rest, other.readLen = 0 := by
        intro other hother
        rcases List.mem_cons.mp hother with rfl | hlater
        · exact hread
        · have := hfirst other hlater
          omega
      rw [copyMiso_silent _ _ hsilent, allOwnBytes_of_silent _ hsilent]
    · cases parts with
      | nil => cases hlengths
      | cons part later =>
        rw [List.map_cons, List.map_cons, List.cons.injEq] at hlengths
        obtain ⟨hpart, hlater⟩ := hlengths
        rw [MosiMisoTransaction.wire, if_neg hread] at hpart
        have hresponse : before ++ (part :: later).flatten = (before ++ part) ++ later.flatten := by
          rw [List.flatten_cons, List.append_assoc]
        have hposition : before.length + (transaction.mosi.length + transaction.readLen) =
            (before ++ part).length := by
          rw [List.length_append, hpart]
        have hlong : ¬(0 < transaction.readLen ∧ ((before ++ part) ++ later.flatten).length <
            before.length + transaction.readLen + transaction.mosi.length) := by
          rw [List.length_append, ← hposition]
          omega
        have hown : ownBytes transaction (((before ++ part) ++ later.flatten).drop before.length) =
            ownBytes transaction part := by
          rw [List.append_assoc, List.drop_left' rfl, ownBytes, ownBytes,
            slice_append_left hpart.ge]
        rw [List.map_cons, hresponse, spiOperationCopyMiso_cons, if_neg hlong, hown, hposition,
          ih later hlater hrest (before ++ part), allOwnBytes_cons]
        rfl

/-! ### A misaligned loop -/

/-- How far the loop moves on. -/
def passed (transactions : List MosiMisoTransaction) : ℕ :=
  (transactions.map fun transaction ↦ transaction.mosi.length + transaction.readLen).sum

theorem seenParts_append (response : List UInt8) (first second : List MosiMisoTransaction)
    (pos : ℕ) :
    seenParts response (first ++ second) pos =
      seenParts response first pos ++ seenParts response second (pos + passed first) := by
  induction first generalizing pos with
  | nil => rfl
  | cons transaction rest ih =>
    rw [List.cons_append, seenParts, ih, seenParts, List.cons_append, passed, passed,
      List.map_cons, List.sum_cons, Nat.add_assoc]

theorem length_seenParts (response : List UInt8) (transactions : List MosiMisoTransaction)
    (pos : ℕ) : (seenParts response transactions pos).length = transactions.length := by
  induction transactions generalizing pos with
  | nil => rfl
  | cons transaction rest ih => rw [seenParts, List.length_cons, ih, List.length_cons]

theorem length_allOwnBytes (transactions : List MosiMisoTransaction) (parts : List (List UInt8))
    (hlength : parts.length = transactions.length) :
    (allOwnBytes transactions parts).length =
      transactions.countP fun transaction ↦ transaction.readLen ≠ 0 := by
  induction transactions generalizing parts with
  | nil => rfl
  | cons transaction rest ih =>
    cases parts with
    | nil => cases hlength
    | cons part later =>
      rw [allOwnBytes_cons, List.length_append, ih later (Nat.succ.inj hlength), List.countP_cons]
      by_cases hread : transaction.readLen = 0 <;> simp [ownBytes, hread, Nat.add_comm]

theorem allOwnBytes_append {first second : List MosiMisoTransaction}
    {firstParts : List (List UInt8)} (hlength : firstParts.length = first.length)
    (secondParts : List (List UInt8)) :
    allOwnBytes (first ++ second) (firstParts ++ secondParts) =
      allOwnBytes first firstParts ++ allOwnBytes second secondParts := by
  rw [allOwnBytes, List.zipWith_append hlength.symm, List.flatten_append]
  rfl

/-- A part of the response in which every byte is zero. -/
def quietPart (transaction : MosiMisoTransaction) : List UInt8 :=
  List.replicate transaction.wire.misoLen 0

/-- A part of the response in which only the first byte for the reader is not zero. -/
def markedPart (transaction : MosiMisoTransaction) : List UInt8 :=
  List.replicate transaction.mosi.length 0 ++ 1 :: List.replicate (transaction.readLen - 1) 0

/-- A response with a single byte that is not zero, the first one for the reader of a
transaction. -/
def markedParts (before : List MosiMisoTransaction) (transaction : MosiMisoTransaction)
    (after : List MosiMisoTransaction) : List (List UInt8) :=
  before.map quietPart ++ markedPart transaction :: after.map quietPart

theorem length_markedPart {transaction : MosiMisoTransaction} (hread : transaction.readLen ≠ 0) :
    (markedPart transaction).length = transaction.wire.misoLen := by
  simp only [markedPart, MosiMisoTransaction.wire, if_neg hread, List.length_append,
    List.length_cons, List.length_replicate]
  omega

theorem map_length_markedParts (before after : List MosiMisoTransaction)
    {transaction : MosiMisoTransaction} (hread : transaction.readLen ≠ 0) :
    (markedParts before transaction after).map List.length =
      (before ++ transaction :: after).map fun transaction ↦ transaction.wire.misoLen := by
  have hquiet : List.length ∘ quietPart = fun transaction ↦ transaction.wire.misoLen := by
    funext other
    exact List.length_replicate
  simp only [markedParts, List.map_append, List.map_cons, List.map_map, hquiet,
    length_markedPart hread]

theorem eq_zero_of_mem_quietParts {transactions : List MosiMisoTransaction} {byte : UInt8}
    (hbyte : byte ∈ (transactions.map quietPart).flatten) : byte = 0 := by
  obtain ⟨part, hpart, hmem⟩ := List.mem_flatten.mp hbyte
  obtain ⟨transaction, -, rfl⟩ := List.mem_map.mp hpart
  exact List.eq_of_mem_replicate hmem

/-- After the marked byte the response is quiet. -/
theorem markedParts_getElem?_ne_one (before after : List MosiMisoTransaction)
    (transaction : MosiMisoTransaction) {index : ℕ}
    (hindex : (before.map fun transaction ↦ transaction.wire.misoLen).sum +
      transaction.mosi.length < index) :
    (markedParts before transaction after).flatten[index]? ≠ some 1 := by
  have hsplit : (markedParts before transaction after).flatten =
      ((before.map quietPart).flatten ++ List.replicate transaction.mosi.length 0 ++ [1]) ++
        (List.replicate (transaction.readLen - 1) 0 ++ (after.map quietPart).flatten) := by
    simp [markedParts, markedPart]
  have hlength : ((before.map quietPart).flatten ++
      List.replicate transaction.mosi.length 0 ++ [1]).length =
        (before.map fun transaction ↦ transaction.wire.misoLen).sum +
          transaction.mosi.length + 1 := by
    simp [List.length_flatten, quietPart, Function.comp_def]
    omega
  intro hone
  rw [hsplit, List.getElem?_append_right (by omega)] at hone
  rcases List.mem_append.mp (List.mem_of_getElem? hone) with hown | hlater
  · exact absurd (List.eq_of_mem_replicate hown) (by decide)
  · exact absurd (eq_zero_of_mem_quietParts hlater) (by decide)

/-- Once the loop is ahead of the response, there is a response for which it gives a reader the
wrong bytes or none. -/
theorem not_deliversOwnBytes {op : Operation} {before after : List MosiMisoTransaction}
    {transaction : MosiMisoTransaction}
    (hrecords : op.transactions =
      (before ++ transaction :: after).map MosiMisoTransaction.record)
    (hread : transaction.readLen ≠ 0)
    (hahead : (before.map fun transaction ↦ transaction.wire.misoLen).sum < passed before)
    (htotal : ((before ++ transaction :: after).map
      fun transaction ↦ transaction.wire.misoLen).sum ≤ maxSpiOpPayloadBytes) :
    ¬DeliversOwnBytes op (before ++ transaction :: after) := by
  intro hdelivers
  have hlengths := map_length_markedParts before after hread
  have hfits : PayloadFits (markedParts before transaction after).flatten maxSpiOpPayloadBytes
      true := by
    simp only [PayloadFits, if_true, List.length_flatten, hlengths]
    exact htotal
  have hcopied := (runs_spiOperationExecute_ok_iff _ _ _ _).mp (hdelivers _ hfits hlengths)
  rw [hrecords] at hcopied
  have hsame := copied_eq_of_copyMiso _ hcopied
  rw [seenParts_append, allOwnBytes_append (length_seenParts _ _ _), markedParts,
    allOwnBytes_append (List.length_map _), seenParts, allOwnBytes_cons, allOwnBytes_cons] at hsame
  have hreaders := List.append_inj hsame (by
    rw [length_allOwnBytes _ _ (List.length_map _),
      length_allOwnBytes _ _ (length_seenParts _ _ _)])
  have hslice : slice (markedPart transaction) transaction.mosi.length transaction.readLen =
      slice ((markedParts before transaction after).flatten.drop (0 + passed before))
        transaction.mosi.length transaction.readLen := by
    have hhead := congrArg List.head? hreaders.2
    simpa [ownBytes, hread, markedParts] using hhead
  have hfirst := congrArg (fun bytes ↦ bytes[0]?) hslice
  simp only [getElem?_slice, if_pos (Nat.pos_of_ne_zero hread), Nat.add_zero, Nat.zero_add,
    List.getElem?_drop] at hfirst
  have hmark : (markedPart transaction)[transaction.mosi.length]? = some 1 := by
    simp [markedPart]
  exact markedParts_getElem?_ne_one before after transaction (by omega) (hfirst ▸ hmark)

/-! ### When an operation round-trips -/

/-- What stands between transactions and their round trip: the buffer must not be filled, each
length must fit its field, and no transaction that reads nothing may come before one that does,
unless no device can answer. -/
structure Unobstructed (transactions : List MosiMisoTransaction) : Prop where
  room : (encoding transactions).length < maxSpiOpPayloadBytes
  lengths : ∀ transaction ∈ transactions, transaction.wire.misoLen < 2 ^ 16
  order : (transactions.map fun transaction ↦ transaction.wire.misoLen).sum ≤
      maxSpiOpPayloadBytes →
    transactions.Pairwise fun earlier later ↦ 0 < later.readLen → 0 < earlier.readLen

theorem Built.deliversOwnBytes {op : Operation} {transactions : List MosiMisoTransaction}
    (hbuilt : Built op transactions)
    (horder : transactions.Pairwise fun earlier later ↦ 0 < later.readLen → 0 < earlier.readLen) :
    DeliversOwnBytes op transactions := by
  intro parts hfits hlengths
  rw [runs_spiOperationExecute_ok_iff, hbuilt.records]
  exact copyMiso_aligned transactions parts hlengths horder []

/-- A loop that passed a transaction that reads nothing is ahead of the response. -/
theorem sum_misoLen_lt_passed {before : List MosiMisoTransaction}
    (hmosi : ∀ transaction ∈ before, transaction.mosi ≠ [])
    (hsilent : ∃ transaction ∈ before, transaction.readLen = 0) :
    (before.map fun transaction ↦ transaction.wire.misoLen).sum < passed before := by
  refine List.sum_lt_sum _ _ (fun transaction _ ↦ ?_) ?_
  · simp only [MosiMisoTransaction.wire]
    split_ifs <;> omega
  · obtain ⟨transaction, hmem, hread⟩ := hsilent
    have hlength := List.length_pos_iff.mpr (hmosi transaction hmem)
    refine ⟨transaction, hmem, ?_⟩
    simp only [MosiMisoTransaction.wire, if_pos hread]
    omega

/-- Out of order, a transaction that reads has one before it that reads nothing. -/
theorem exists_of_not_pairwise {transactions : List MosiMisoTransaction}
    (horder : ¬transactions.Pairwise fun earlier later ↦ 0 < later.readLen → 0 < earlier.readLen) :
    ∃ before transaction after, transactions = before ++ transaction :: after ∧
      transaction.readLen ≠ 0 ∧ ∃ other ∈ before, other.readLen = 0 := by
  induction transactions with
  | nil => exact absurd List.Pairwise.nil horder
  | cons first rest ih =>
    by_cases hrest : rest.Pairwise fun earlier later ↦ 0 < later.readLen → 0 < earlier.readLen
    · have hfirst : ∃ later ∈ rest, 0 < later.readLen ∧ first.readLen = 0 := by
        by_contra hnone
        push Not at hnone
        refine horder (List.pairwise_cons.mpr ⟨fun later hlater hread ↦ ?_, hrest⟩)
        exact Nat.pos_of_ne_zero (hnone later hlater hread)
      obtain ⟨later, hlater, hread, hsilent⟩ := hfirst
      obtain ⟨between, after, rfl⟩ := List.append_of_mem hlater
      exact ⟨first :: between, later, after, rfl, Nat.pos_iff_ne_zero.mp hread, first,
        List.mem_cons_self, hsilent⟩
    · obtain ⟨before, later, after, rfl, hread, other, hother, hsilent⟩ := ih hrest
      exact ⟨first :: before, later, after, rfl, hread, other, List.mem_cons_of_mem _ hother,
        hsilent⟩

/-- The bytes of a transaction are in the encoding. -/
theorem length_mosi_le_encoding {transactions : List MosiMisoTransaction}
    {transaction : MosiMisoTransaction} (hmem : transaction ∈ transactions) :
    transaction.mosi.length ≤ (encoding transactions).length := by
  obtain ⟨before, after, rfl⟩ := List.append_of_mem hmem
  simp only [encoding, encodeTransactions, List.map_append, List.map_cons, List.flatMap_append,
    List.flatMap_cons, List.length_append, SpiTransaction.length_encode, MosiMisoTransaction.wire]
  omega

theorem Unobstructed.roundTrips {transactions : List MosiMisoTransaction}
    (hunobstructed : Unobstructed transactions) (hcount : transactions.length ≤ maxTransactions) :
    RoundTrips transactions := by
  obtain ⟨op, hop, hbuilt⟩ := buildOperation_ok transactions hcount hunobstructed.room
  refine ⟨op, hop, ?_, ?_⟩
  · rw [hbuilt.builds.buf]
    refine decodeTransactions_encode _ fun wire hwire ↦ ?_
    obtain ⟨transaction, hmem, rfl⟩ := List.mem_map.mp hwire
    have hroom : (encoding transactions).length < 1016 := hunobstructed.room
    have hlength := (length_mosi_le_encoding hmem).trans_lt hroom
    exact ⟨hlength.trans (by decide), hunobstructed.lengths transaction hmem⟩
  · by_cases htotal : (transactions.map fun transaction ↦ transaction.wire.misoLen).sum ≤
        maxSpiOpPayloadBytes
    · exact hbuilt.deliversOwnBytes (hunobstructed.order htotal)
    · intro parts hfits hlengths
      rw [PayloadFits, if_pos rfl, List.length_flatten, hlengths] at hfits
      exact absurd hfits htotal

theorem RoundTrips.unobstructed {transactions : List MosiMisoTransaction}
    (hroundTrips : RoundTrips transactions) (hcount : transactions.length ≤ maxTransactions)
    (hmosi : ∀ transaction ∈ transactions, transaction.mosi ≠ []) : Unobstructed transactions := by
  obtain ⟨op, hop, hdecode, hdelivers⟩ := hroundTrips
  have hroom : (encoding transactions).length < maxSpiOpPayloadBytes := by
    by_contra hfull
    rw [buildOperation_fault transactions hcount hmosi (not_lt.mp hfull)] at hop
    cases hop
  refine ⟨hroom, fun transaction hmem ↦ ?_, fun htotal ↦ ?_⟩
  · exact misoLen_lt_of_decode hdecode _ (List.mem_map_of_mem hmem)
  · by_contra horder
    obtain ⟨built, hbuilt, hrecords⟩ := buildOperation_ok transactions hcount hroom
    obtain rfl : built = op := Except.ok.inj (hbuilt.symm.trans hop)
    obtain ⟨before, transaction, after, rfl, hread, hsilent⟩ := exists_of_not_pairwise horder
    have hahead := sum_misoLen_lt_passed
      (fun other hother ↦ hmosi other (List.mem_append_left _ hother)) hsilent
    exact not_deliversOwnBytes hrecords.records hread hahead htotal hdelivers

/-- Transactions round-trip exactly when nothing stands in between. -/
theorem roundTrips_iff (transactions : List MosiMisoTransaction)
    (hcount : transactions.length ≤ maxTransactions)
    (hmosi : ∀ transaction ∈ transactions, transaction.mosi ≠ []) :
    RoundTrips transactions ↔ Unobstructed transactions :=
  ⟨fun hroundTrips ↦ hroundTrips.unobstructed hcount hmosi,
    fun hunobstructed ↦ hunobstructed.roundTrips hcount⟩

/-- A write enable followed by reading the status register, each a transaction of its own. -/
def writeEnableReadStatus : List MosiMisoTransaction :=
  [⟨[[0x06]], 0⟩, ⟨[[0x05]], 1⟩]

/-- Reading the status register in two transactions round-trips. -/
theorem roundTrips_readStatus_twice : RoundTrips [⟨[[0x05]], 1⟩, ⟨[[0x05]], 1⟩] :=
  (roundTrips_iff _ (by decide) (by decide)).mpr
    { room := by decide
      lengths := by decide
      order := fun _ ↦ by decide }

/-- After a write enable, the status register cannot be read, although both transactions fit. -/
theorem not_roundTrips_writeEnableReadStatus :
    writeEnableReadStatus.length ≤ maxTransactions ∧
      (∀ transaction ∈ writeEnableReadStatus, transaction.mosi ≠ []) ∧
      (encoding writeEnableReadStatus).length ≤ maxSpiOpPayloadBytes ∧
      ¬RoundTrips writeEnableReadStatus := by
  refine ⟨by decide, by decide, by decide, fun hroundTrips ↦ ?_⟩
  have horder := (hroundTrips.unobstructed (by decide) (by decide)).order (by decide)
  exact absurd horder (by decide)

end Libhoth.Protocol.SpiOperationRoundTrip
