import Mathlib.Data.List.Induction
import Mathlib.Tactic.Common
import Mathlib.Tactic.SplitIfs

/-!
# Memories of cells

A memory is a function from addresses to cells. `writeWith` merges a list of values into the cells
from an offset on, cell by cell, and leaves every other cell alone. `store` is the write that
replaces the cells. The three lemmas about `writeWith` (inside, below and above the written range)
are all a proof needs to know about it.

`load` reads cells back. `storePackets` stores a list of packets at the multiples of a stride, each
after the one before, and `storePackets_apply` says that a packet keeps the cells of its own stride
against every later packet, however long the earlier ones were.
-/

set_option autoImplicit false
set_option relaxedAutoImplicit false

namespace Libhoth.Foundation.CellMemory

variable {α β : Type*}

/-- Merge a list of values into the cells from `offset` on. -/
def writeWith (merge : α → β → α) (cells : ℕ → α) (offset : ℕ) (values : List β)
    (address : ℕ) : α :=
  if h : offset ≤ address ∧ address < offset + values.length then
    merge (cells address) (values[address - offset])
  else cells address

/-- Inside the written range a cell is merged with the value at its place. -/
theorem writeWith_of_mem (merge : α → β → α) (cells : ℕ → α) {offset address : ℕ}
    {values : List β} (hlower : offset ≤ address) (hupper : address < offset + values.length) :
    writeWith merge cells offset values address =
      merge (cells address) (values[address - offset]) :=
  dif_pos ⟨hlower, hupper⟩

/-- Below the written range a cell is unchanged. -/
theorem writeWith_of_lt (merge : α → β → α) (cells : ℕ → α) {offset address : ℕ}
    (values : List β) (hbelow : address < offset) :
    writeWith merge cells offset values address = cells address :=
  dif_neg (by omega)

/-- Above the written range a cell is unchanged. -/
theorem writeWith_of_ge (merge : α → β → α) (cells : ℕ → α) {offset address : ℕ}
    {values : List β} (habove : offset + values.length ≤ address) :
    writeWith merge cells offset values address = cells address :=
  dif_neg (by omega)

/-- Two writes next to each other are one write. -/
theorem writeWith_writeWith_append (merge : α → β → α) (cells : ℕ → α) (offset : ℕ)
    (first second : List β) :
    writeWith merge (writeWith merge cells offset first) (offset + first.length) second =
      writeWith merge cells offset (first ++ second) := by
  funext address
  have hlength : (first ++ second).length = first.length + second.length := List.length_append
  by_cases hbelow : address < offset
  · rw [writeWith_of_lt _ _ _ (by omega), writeWith_of_lt _ _ _ hbelow,
      writeWith_of_lt _ _ _ hbelow]
  · by_cases hfirst : address < offset + first.length
    · rw [writeWith_of_lt _ _ _ hfirst, writeWith_of_mem _ _ (by omega) hfirst,
        writeWith_of_mem _ _ (by omega) (by omega), List.getElem_append_left (by omega)]
    · by_cases hsecond : address < offset + first.length + second.length
      · rw [writeWith_of_mem _ _ (by omega) hsecond, writeWith_of_ge _ _ (by omega),
          writeWith_of_mem _ _ (by omega) (by omega), List.getElem_append_right (by omega)]
        exact congrArg _ (getElem_congr_idx (by omega))
      · rw [writeWith_of_ge _ _ (by omega), writeWith_of_ge _ _ (by omega),
          writeWith_of_ge _ _ (by omega)]

/-- Replace the cells from `offset` on by the given values. -/
def store (cells : ℕ → α) (offset : ℕ) (values : List α) : ℕ → α :=
  writeWith (fun _ value ↦ value) cells offset values

theorem store_of_mem (cells : ℕ → α) {offset address : ℕ} {values : List α}
    (hlower : offset ≤ address) (hupper : address < offset + values.length) :
    store cells offset values address = values[address - offset] :=
  writeWith_of_mem _ cells hlower hupper

theorem store_of_lt (cells : ℕ → α) {offset address : ℕ} (values : List α)
    (hbelow : address < offset) : store cells offset values address = cells address :=
  writeWith_of_lt _ cells values hbelow

theorem store_of_ge (cells : ℕ → α) {offset address : ℕ} {values : List α}
    (habove : offset + values.length ≤ address) :
    store cells offset values address = cells address :=
  writeWith_of_ge _ cells habove

/-- Storing nothing. -/
@[simp] theorem store_nil (cells : ℕ → α) (offset : ℕ) : store cells offset [] = cells := by
  funext address
  rcases Nat.lt_or_ge address offset with hbelow | habove
  · exact store_of_lt cells [] hbelow
  · exact store_of_ge cells habove

/-- A stored value is found at its place in the list. -/
theorem getElem?_store (cells : ℕ → α) {offset address : ℕ} {values : List α}
    (hlower : offset ≤ address) (hupper : address < offset + values.length) :
    values[address - offset]? = some (store cells offset values address) := by
  rw [store_of_mem cells hlower hupper]
  exact List.getElem?_eq_getElem _

/-- Two stores next to each other are one store. -/
theorem store_store_append (cells : ℕ → α) (offset : ℕ) (first second : List α) :
    store (store cells offset first) (offset + first.length) second =
      store cells offset (first ++ second) :=
  writeWith_writeWith_append _ cells offset first second

/-- The `count` cells from `offset` on. -/
def load (cells : ℕ → α) (offset count : ℕ) : List α :=
  (List.range count).map fun index ↦ cells (offset + index)

@[simp] theorem length_load (cells : ℕ → α) (offset count : ℕ) :
    (load cells offset count).length = count := by
  simp [load]

theorem getElem?_load (cells : ℕ → α) {offset count index : ℕ} (hindex : index < count) :
    (load cells offset count)[index]? = some (cells (offset + index)) := by
  rw [load, List.getElem?_map, List.getElem?_range hindex]
  rfl

/-- A list that agrees with the cells is what a load reads. -/
theorem load_eq_of_getElem? {cells : ℕ → α} {offset count : ℕ} {values : List α}
    (hlength : values.length = count)
    (hvalues : ∀ index < count, values[index]? = some (cells (offset + index))) :
    load cells offset count = values := by
  refine List.ext_getElem? fun index ↦ ?_
  rcases Nat.lt_or_ge index count with hinside | houtside
  · rw [hvalues index hinside, getElem?_load cells hinside]
  · rw [List.getElem?_eq_none (by rw [length_load]; exact houtside),
      List.getElem?_eq_none (by rw [hlength]; exact houtside)]

@[simp] theorem load_zero (cells : ℕ → α) (offset : ℕ) : load cells offset 0 = [] :=
  rfl

/-- A load of two ranges next to each other. -/
theorem load_add (cells : ℕ → α) (offset first second : ℕ) :
    load cells offset (first + second) =
      load cells offset first ++ load cells (offset + first) second := by
  rw [load, load, load, List.range_add, List.map_append, List.map_map]
  exact congrArg _ (List.map_congr_left fun index _ ↦ congrArg cells (Nat.add_assoc _ _ _).symm)

/-- A load that follows an offset is a load from it on. -/
theorem load_offset (cells : ℕ → α) (start offset count : ℕ) :
    load cells (start + offset) count = load (fun index ↦ cells (start + index)) offset count :=
  List.map_congr_left fun index _ ↦ congrArg cells (Nat.add_assoc start offset index)

/-- A copy has the cells that were loaded. -/
theorem store_load_of_lt (cells source : ℕ → α) {count address : ℕ} (hinside : address < count) :
    store cells 0 (load source 0 count) address = source address := by
  have hread := getElem?_store cells (Nat.zero_le address)
    (show address < 0 + (load source 0 count).length by rw [length_load]; omega)
  rw [Nat.sub_zero, getElem?_load source hinside, Nat.zero_add] at hread
  exact (Option.some.inj hread).symm

/-- A copy keeps the cells behind it. -/
theorem store_load_of_ge (cells source : ℕ → α) {count address : ℕ} (houtside : count ≤ address) :
    store cells 0 (load source 0 count) address = cells address :=
  store_of_ge cells (by rw [length_load]; omega)

/-- Storing right behind what was loaded appends to it. -/
theorem load_store_append (cells : ℕ → α) (offset count : ℕ) (values : List α) :
    load (store cells (offset + count) values) offset (count + values.length) =
      load cells offset count ++ values := by
  refine load_eq_of_getElem? (by simp) fun index hindex ↦ ?_
  by_cases hinside : index < count
  · rw [List.getElem?_append_left (by simpa using hinside), getElem?_load cells hinside,
      store_of_lt _ _ (by omega)]
  · rw [List.getElem?_append_right (by simpa using hinside), length_load,
      ← getElem?_store cells (by omega) (by omega)]
    congr 1
    omega

/-- A load inside the stored values reads them back. -/
theorem load_store (cells : ℕ → α) {values : List α} {offset count : ℕ}
    (hinside : offset + count ≤ values.length) :
    load (store cells 0 values) offset count = (values.drop offset).take count := by
  refine load_eq_of_getElem? (by rw [List.length_take, List.length_drop]; omega)
    fun index hindex ↦ ?_
  have hread := getElem?_store cells (Nat.zero_le (offset + index))
    (show offset + index < 0 + values.length by omega)
  rw [List.getElem?_take, if_pos hindex, List.getElem?_drop]
  exact hread

/-- A load of what was stored. -/
theorem load_store_self (cells : ℕ → α) (offset : ℕ) (values : List α) :
    load (store cells offset values) offset values.length = values := by
  have happend := load_store_append cells offset 0 values
  rwa [Nat.add_zero, Nat.zero_add, load_zero, List.nil_append] at happend

/-- A load off the stored range. -/
theorem load_store_of_disjoint (cells : ℕ → α) {start offset count : ℕ} {values : List α}
    (hdisjoint : offset + count ≤ start ∨ start + values.length ≤ offset) :
    load (store cells start values) offset count = load cells offset count := by
  refine List.map_congr_left fun index hindex ↦ ?_
  have hinside := List.mem_range.mp hindex
  rcases hdisjoint with hbelow | habove
  · exact store_of_lt _ _ (by omega)
  · exact store_of_ge _ (by omega)

/-- What is loaded from the start of a store begins it, unless it goes on behind it. -/
theorem load_store_prefix_iff (cells : ℕ → α) (values : List α) (count : ℕ) :
    load (store cells 0 values) 0 count <+: values ↔ count ≤ values.length := by
  constructor
  · intro hprefix
    have hlength := hprefix.length_le
    rwa [length_load] at hlength
  · intro hcount
    rw [load_store cells (show 0 + count ≤ values.length by omega), List.drop_zero]
    exact List.take_prefix _ _

/-- Store packets at the multiples of a stride, in order. -/
def storePackets (stride : ℕ) (cells : ℕ → α) (packets : List (List α)) : ℕ → α :=
  packets.zipIdx.foldl (fun cells packet ↦ store cells (stride * packet.2) packet.1) cells

@[simp] theorem storePackets_nil (stride : ℕ) (cells : ℕ → α) :
    storePackets stride cells [] = cells :=
  rfl

theorem storePackets_snoc (stride : ℕ) (cells : ℕ → α) (packets : List (List α))
    (packet : List α) :
    storePackets stride cells (packets ++ [packet]) =
      store (storePackets stride cells packets) (stride * packets.length) packet := by
  simp [storePackets, List.zipIdx_append]

/-- A cell holds the value of the packet whose stride it is in, when that packet reaches it. -/
theorem storePackets_apply {stride : ℕ} (cells : ℕ → α) {packets : List (List α)} {address : ℕ}
    {packet : List α} (hpacket : packets[address / stride]? = some packet)
    (hindex : address % stride < packet.length) (hstride : 0 < stride) :
    storePackets stride cells packets address = packet[address % stride] := by
  have hdivMod := Nat.div_add_mod address stride
  induction packets using List.reverseRecOn with
  | nil => simp at hpacket
  | append_singleton earlier last ih =>
    rw [storePackets_snoc]
    by_cases hlast : address / stride = earlier.length
    · rw [hlast, List.getElem?_concat_length, Option.some.injEq] at hpacket
      subst hpacket
      rw [hlast] at hdivMod
      rw [store_of_mem _ (by omega) (by omega)]
      exact getElem_congr_idx (by omega)
    · have hearlier : address / stride < earlier.length := by
        have hbound := (List.getElem?_eq_some_iff.mp hpacket).1
        rw [List.length_append, List.length_singleton] at hbound
        omega
      have hbelow : address < stride * earlier.length := by
        rw [Nat.mul_comm]
        exact (Nat.div_lt_iff_lt_mul hstride).mp hearlier
      rw [store_of_lt _ _ hbelow]
      rw [List.getElem?_append_left hearlier] at hpacket
      exact ih hpacket

end Libhoth.Foundation.CellMemory
