import Libhoth.Examples.SecurityTokens

/-!
# What a fetched attestation is

`Complete` says what a successful `htool_fetch_single_attestation_file` should leave behind: a file
with the number of sets and its signature, followed by the tokens and the info of every set.

The function keeps one status for all its calls, so an exit after a successful call returns zero.
`FetchEnd` lists the ways in which a run of the function can end, and `fetch_ensures` says that
there are no others. `fetch_returns_zero_iff` says which exits return zero without a complete file,
and `fetch_stays_inside_iff` that the function leaves its buffer exactly when what it copies is
larger than the buffer: the checks in the loop compare where the next copy begins, not where it
ends.
-/

set_option autoImplicit false
set_option relaxedAutoImplicit false

namespace Libhoth.Examples.AttestationFile

open Foundation.ByteString Foundation.CheckedAccess Foundation.CellMemory
open Foundation.InteractingProgram HtoolProgram SecurityV2 SecurityTokens

/-! ### The attestation -/

/-- The number of sets, its boot nonce and its signature. -/
def countBytes (count : TokenSetCount) : List UInt8 :=
  toLittleEndian wordSize count.numIds ++ (count.bootNonce ++ count.signature)

/-- The tokens of a set, their boot nonce and their signature. -/
def setBytes (set : TokensInSet) : List UInt8 :=
  set.tokens ++ (set.bootNonce ++ set.signature)

/-- The whole attestation, for the tokens and the info of each set in order. -/
def attestation (count : TokenSetCount) (sets : List (TokensInSet × List UInt8)) : List UInt8 :=
  countBytes count ++ sets.flatMap fun set ↦ setBytes set.1 ++ set.2

/-- The file was opened, and the attestation with every set that the device counts was written. -/
structure Complete (filename : Option (List UInt8)) (history : AttestationHistory) : Prop where
  named : ∃ path, filename = some path ∧ ⟨.openFile path, true⟩ ∈ history
  written : ∃ count sets, ⟨.tokenSetCount, .ok (.accepted count)⟩ ∈ history ∧
    sets.length = count.numIds ∧
    (∀ index set, sets[index]? = some set →
      ⟨.tokensInSet index, .ok (.accepted set.1)⟩ ∈ history ∧
        ⟨.tokenSetInfo index, .ok (.accepted set.2)⟩ ∈ history) ∧
    ⟨.writeFile (attestation count sets), ()⟩ ∈ history

/-- What the function copies from the reply to a call. -/
def copiedFrom : Exchange AttestationReply → List UInt8
  | ⟨.tokenSetCount, .ok (.accepted count)⟩ => countBytes count
  | ⟨.tokensInSet _, .ok (.accepted set)⟩ => setBytes set
  | ⟨.tokenSetInfo _, .ok (.accepted info)⟩ => info
  | _ => []

/-- All that the function copies, in order. -/
def copied (history : AttestationHistory) : List UInt8 :=
  history.flatMap copiedFrom

/-- The call returned the info of a set. -/
def isInfo : Exchange AttestationReply → Bool
  | ⟨.tokenSetInfo _, .ok (.accepted _)⟩ => true
  | _ => false

/-- Nothing makes the function give up after the sets were counted: it has a name, the file can be
opened, the device still has the version 2 of the commands, and the replies stay below the size of
the buffer unless the info of no set is missing. -/
structure Unhindered (filename : Option (List UInt8)) (history : AttestationHistory) : Prop where
  named : filename ≠ none
  opened : ∀ path, ⟨.openFile path, false⟩ ∉ history
  supported : ∀ version, ⟨.securityVersion, version⟩ ∈ history → version = .v2
  room : maxAttestationSize ≤ (copied history).length →
    ∀ count, ⟨.tokenSetCount, .ok (.accepted count)⟩ ∈ history →
      history.countP isInfo = count.numIds

/-! ### How a run ends -/

/-- The exchanges until the sets were counted. -/
def counting (count : TokenSetCount) : AttestationHistory :=
  [⟨.libhothDevice, true⟩, ⟨.tokenSetCount, .ok (.accepted count)⟩]

/-- The exchanges until the loop begins. -/
def opening (path : List UInt8) (count : TokenSetCount) : AttestationHistory :=
  counting count ++ [⟨.openFile path, true⟩, ⟨.securityVersion, .v2⟩]

/-- The exchanges of the rounds for some sets. -/
def setExchanges (sets : List (TokensInSet × List UInt8)) : AttestationHistory :=
  sets.zipIdx.flatMap fun set ↦
    [⟨.tokensInSet set.2, .ok (.accepted set.1.1)⟩, ⟨.tokenSetInfo set.2, .ok (.accepted set.1.2)⟩]

/-- The calls of the loop. -/
def AboutSets (history : AttestationHistory) : Prop :=
  ∀ exchange ∈ history, match exchange.1 with
    | .tokensInSet _ | .tokenSetInfo _ | .writeFile _ => True
    | _ => False

/-- How a run that entered the loop ends. -/
inductive LoopEnd (reach : ℕ) (path : List UInt8) (count : TokenSetCount) :
    Except Fault (BitVec 32) → AttestationHistory → Prop
  | failed {status : BitVec 32} {rest : AttestationHistory} (hnonzero : status ≠ 0)
    (habout : AboutSets rest)
    (hroom : (copied (opening path count ++ rest)).length < maxAttestationSize) :
    LoopEnd reach path count (.ok status) (opening path count ++ rest)
  | overflow {rest : AttestationHistory} (habout : AboutSets rest)
    (hover : reach < (copied (opening path count ++ rest)).length) :
    LoopEnd reach path count (.error .writeOutOfBounds) (opening path count ++ rest)
  | full {rest : AttestationHistory} (habout : AboutSets rest)
    (hfull : maxAttestationSize ≤ (copied (opening path count ++ rest)).length)
    (hroom : (copied (opening path count ++ rest)).length ≤ reach)
    (hmissing : rest.countP isInfo < count.numIds)
    (hunwritten : ∀ contents, ⟨.writeFile contents, ()⟩ ∉ rest) :
    LoopEnd reach path count (.ok 0) (opening path count ++ rest)
  | written {sets : List (TokensInSet × List UInt8)} (hall : sets.length = count.numIds)
    (hroom : (attestation count sets).length ≤ reach) :
    LoopEnd reach path count (.ok 0) (opening path count ++
      (setExchanges sets ++ [⟨.writeFile (attestation count sets), ()⟩]))

/-- How a run of the function ends. -/
inductive FetchEnd (reach : ℕ) (filename : Option (List UInt8)) :
    Except Fault (BitVec 32) → AttestationHistory → Prop
  | uncounted {status : BitVec 32} {history : AttestationHistory} (hnonzero : status ≠ 0)
    (hnone : ∀ count, ⟨.tokenSetCount, .ok (.accepted count)⟩ ∉ history)
    (hcopied : copied history = []) : FetchEnd reach filename (.ok status) history
  | unnamed {count : TokenSetCount} (hsized : count.Sized) (hname : filename = none) :
    FetchEnd reach filename (.ok 0) (counting count)
  | unopened {count : TokenSetCount} (hsized : count.Sized) (path : List UInt8)
    (hname : filename = some path) :
    FetchEnd reach filename (.ok 0) (counting count ++ [⟨.openFile path, false⟩])
  | unsupported {count : TokenSetCount} (hsized : count.Sized) (path : List UInt8)
    (hname : filename = some path) {version : LibhothSecurityVersion} (hversion : version ≠ .v2) :
    FetchEnd reach filename (.ok 0)
      (counting count ++ [⟨.openFile path, true⟩, ⟨.securityVersion, version⟩])
  | entered {count : TokenSetCount} {path : List UInt8} {outcome : Except Fault (BitVec 32)}
    {history : AttestationHistory} (hname : filename = some path)
    (hloop : LoopEnd reach path count outcome history) : FetchEnd reach filename outcome history

/-! ### What was copied -/

section Copied

variable (first second : AttestationHistory) (sets : List (TokensInSet × List UInt8))

@[simp] theorem copied_append : copied (first ++ second) = copied first ++ copied second :=
  List.flatMap_append

@[simp] theorem copied_nil : copied [] = [] :=
  rfl

@[simp] theorem copied_cons (exchange : Exchange AttestationReply) (rest : AttestationHistory) :
    copied (exchange :: rest) = copiedFrom exchange ++ copied rest :=
  rfl

theorem copied_opening (path : List UInt8) (count : TokenSetCount) :
    copied (opening path count) = countBytes count := by
  simp [opening, counting, copiedFrom]

theorem setExchanges_snoc (set : TokensInSet × List UInt8) :
    setExchanges (sets ++ [set]) = setExchanges sets ++
      [⟨.tokensInSet sets.length, .ok (.accepted set.1)⟩,
        ⟨.tokenSetInfo sets.length, .ok (.accepted set.2)⟩] := by
  simp [setExchanges, List.zipIdx_append]

theorem copied_setExchanges :
    copied (setExchanges sets) = sets.flatMap fun set ↦ setBytes set.1 ++ set.2 := by
  induction sets using List.reverseRecOn with
  | nil => rfl
  | append_singleton sets set ih =>
    rw [setExchanges_snoc, copied_append, ih, List.flatMap_append]
    simp [copiedFrom]

/-- After some rounds the function has copied the attestation so far. -/
theorem copied_opening_setExchanges (path : List UInt8) (count : TokenSetCount) :
    copied (opening path count ++ setExchanges sets) = attestation count sets := by
  rw [copied_append, copied_opening, copied_setExchanges, attestation]

theorem countP_isInfo_setExchanges : (setExchanges sets).countP isInfo = sets.length := by
  induction sets using List.reverseRecOn with
  | nil => rfl
  | append_singleton sets set ih =>
    rw [setExchanges_snoc, List.countP_append, ih, List.length_append]
    rfl

theorem countP_isInfo_opening (path : List UInt8) (count : TokenSetCount) :
    (opening path count).countP isInfo = 0 :=
  rfl

theorem aboutSets_setExchanges : AboutSets (setExchanges sets) := by
  intro exchange hmem
  obtain ⟨set, -, hset⟩ := List.mem_flatMap.mp hmem
  rcases List.mem_pair.mp hset with rfl | rfl <;> trivial

theorem AboutSets.append {first second : AttestationHistory} (hfirst : AboutSets first)
    (hsecond : AboutSets second) : AboutSets (first ++ second) := by
  intro exchange hmem
  exact (List.mem_append.mp hmem).elim (hfirst exchange) (hsecond exchange)

theorem writeFile_not_mem_setExchanges (contents : List UInt8) :
    (⟨.writeFile contents, ()⟩ : Exchange AttestationReply) ∉ setExchanges sets := by
  intro hmem
  obtain ⟨set, -, hset⟩ := List.mem_flatMap.mp hmem
  rcases List.mem_pair.mp hset with hfirst | hsecond
  · cases hfirst
  · cases hsecond

end Copied

/-- The copied parameters of the count fill the first 148 bytes. -/
theorem length_countBytes {count : TokenSetCount} (hsized : count.Sized) :
    (countBytes count).length = 148 := by
  simp only [countBytes, List.length_append, length_toLittleEndian, hsized.bootNonce,
    hsized.signature]
  rfl

/-- The copies of `htool_get_token_set_count` are one store. -/
theorem copyTokenSetCount_eq {reach : ℕ} (hreach : maxAttestationSize ≤ reach)
    {count : TokenSetCount} (hsized : count.Sized) (data : ℕ → UInt8) :
    copyTokenSetCount reach data 0 count = .ok (store data 0 (countBytes count)) := by
  have hsize : maxAttestationSize = 2048 := rfl
  have hword : (toLittleEndian wordSize count.numIds).length = wordSize := length_toLittleEndian _ _
  have hcopy := storeWithin_append reach
    (store data 0 (toLittleEndian wordSize count.numIds)) wordSize count.bootNonce count.signature
  have hall := storeWithin_append reach data 0
    (toLittleEndian wordSize count.numIds) (count.bootNonce ++ count.signature)
  rw [hsized.bootNonce] at hcopy
  rw [hword, Nat.zero_add] at hall
  have hfirst : storeWithin reach data 0 (toLittleEndian wordSize count.numIds) =
      .ok (store data 0 (toLittleEndian wordSize count.numIds)) :=
    storeWithin_of_le data (by rw [hword, wordSize]; omega)
  rw [copyTokenSetCount, hfirst, ok_bind, Nat.zero_add, hcopy]
  rw [hfirst, ok_bind] at hall
  rw [hall]
  exact storeWithin_of_le data (by rw [← countBytes, length_countBytes hsized]; omega)

/-- The copies of `htool_get_tokens_in_set` are one store, with the length of what was stored. -/
theorem copyTokensInSet_eq (reach : ℕ) (data : ℕ → UInt8) (dataIndex : ℕ) (set : TokensInSet) :
    copyTokensInSet reach data dataIndex set =
      (storeWithin reach data dataIndex (setBytes set)).map
        fun data ↦ (data, (setBytes set).length) := by
  simp only [copyTokensInSet, setBytes, ← storeWithin_append, List.length_append]
  cases storeWithin reach data dataIndex set.tokens with
  | error fault => rfl
  | ok first =>
    simp only [ok_bind]
    cases storeWithin reach first (dataIndex + set.tokens.length) set.bootNonce with
    | error fault => rfl
    | ok second =>
      simp only [ok_bind, Nat.add_assoc]
      cases storeWithin reach second
        (dataIndex + (set.tokens.length + set.bootNonce.length)) set.signature <;> rfl

/-! ### The loop -/

section Loop

variable {reach : ℕ} {path : List UInt8} {count : TokenSetCount}
  {sets : List (TokensInSet × List UInt8)}

/-- The rounds so far: every set was copied behind the ones before it. -/
structure Fetching (reach : ℕ) (path : List UInt8) (count : TokenSetCount)
    (sets : List (TokensInSet × List UInt8)) (state : FetchState) (history : AttestationHistory) :
    Prop where
  history_eq : history = opening path count ++ setExchanges sets
  index_eq : state.index = sets.length
  index_le : sets.length ≤ count.numIds
  status_eq : state.status = 0
  dataIndex_eq : state.dataIndex = (attestation count sets).length
  room : (attestation count sets).length ≤ reach
  data_eq : load state.data 0 state.dataIndex = attestation count sets

theorem attestation_snoc (set : TokensInSet × List UInt8) :
    attestation count (sets ++ [set]) = attestation count sets ++ (setBytes set.1 ++ set.2) := by
  simp [attestation]

/-- What was copied when some exchanges followed the rounds so far. -/
theorem copied_opening_append (rest : AttestationHistory) :
    copied (opening path count ++ (setExchanges sets ++ rest)) =
      attestation count sets ++ copied rest := by
  rw [← List.append_assoc, copied_append, copied_opening_setExchanges]

/-- Storing bytes behind a prefix that was stored before. -/
theorem load_store_end {cells : ℕ → UInt8} {dataIndex : ℕ} {stored : List UInt8}
    (hindex : dataIndex = stored.length) (hstored : load cells 0 dataIndex = stored)
    (bytes : List UInt8) :
    load (store cells dataIndex bytes) 0 (stored.length + bytes.length) = stored ++ bytes := by
  have hload := load_store_append cells 0 dataIndex bytes
  rw [Nat.zero_add, hstored, hindex] at hload
  rw [hindex]
  exact hload

variable {σ : Type} {environment : Environment ToolReply σ}

/-- The exchange for the tokens of the next set. -/
def tokensExchange (sets : List (TokensInSet × List UInt8)) (set : TokensInSet) :
    Exchange AttestationReply :=
  ⟨.tokensInSet sets.length, .ok (.accepted set)⟩

theorem copied_tokensExchange (sets : List (TokensInSet × List UInt8)) (set : TokensInSet)
    (rest : AttestationHistory) :
    copied (tokensExchange sets set :: rest) = setBytes set ++ copied rest :=
  rfl

/-- The copies of a round, up to the tokens of the set, are at the end of what was copied. -/
theorem copied_tokens (set : TokensInSet) :
    copied (opening path count ++ (setExchanges sets ++ [tokensExchange sets set])) =
      attestation count sets ++ setBytes set := by
  rw [copied_opening_append, copied_tokensExchange, copied_nil, List.append_nil]

theorem aboutSets_tokens (set : TokensInSet) :
    AboutSets (setExchanges sets ++ [tokensExchange sets set]) :=
  (aboutSets_setExchanges sets).append (by simp [AboutSets, tokensExchange])

/-- When the buffer is full behind the tokens of a set, the info of the set is missing. -/
theorem LoopEnd.full_of_tokens {set : TokensInSet} (hmore : sets.length < count.numIds)
    (hfull : maxAttestationSize ≤ (attestation count sets ++ setBytes set).length)
    (hroom : (attestation count sets ++ setBytes set).length ≤ reach) :
    LoopEnd reach path count (.ok 0)
      (opening path count ++ (setExchanges sets ++ [tokensExchange sets set])) := by
  refine .full (aboutSets_tokens set) ?_ ?_ ?_ fun contents hmem ↦ ?_
  · rw [copied_tokens]
    exact hfull
  · rw [copied_tokens]
    exact hroom
  · rw [List.countP_append, countP_isInfo_setExchanges]
    exact hmore
  · rcases List.mem_append.mp hmem with hset | htokens
    · exact writeFile_not_mem_setExchanges sets contents hset
    · cases List.mem_singleton.mp htokens

/-- A round that copied both halves is one more set of the attestation. -/
theorem Fetching.next {state : FetchState} {set : TokensInSet} {info : List UInt8}
    {data : ℕ → UInt8} (hindex : state.index = sets.length) (hmore : sets.length < count.numIds)
    (hinfo : info.length = tokenSetInfoSize)
    (hfits : (attestation count sets ++ setBytes set).length + info.length ≤ reach)
    (hdata : load data 0 (attestation count sets ++ setBytes set).length =
      attestation count sets ++ setBytes set) :
    Fetching reach path count (sets ++ [(set, info)])
      ⟨state.index + 1, 0, (attestation count sets ++ setBytes set).length + tokenSetInfoSize,
        store data (attestation count sets ++ setBytes set).length info⟩
      (opening path count ++ (setExchanges sets ++ [tokensExchange sets set,
        ⟨.tokenSetInfo sets.length, .ok (.accepted info)⟩])) := by
  have hnext : attestation count (sets ++ [(set, info)]) =
      attestation count sets ++ setBytes set ++ info := by
    rw [attestation_snoc, List.append_assoc]
  refine ⟨?_, ?_, ?_, rfl, ?_, ?_, ?_⟩
  · rw [setExchanges_snoc]
    rfl
  · simp only [List.length_append, List.length_singleton, hindex]
  · rw [List.length_append, List.length_singleton]
    exact hmore
  · rw [hnext, ← hinfo]
    exact List.length_append.symm
  · rw [hnext, List.length_append]
    exact hfits
  · rw [hnext, ← hinfo]
    exact load_store_end rfl hdata info

/-- The second half of a round copies the info of the set, or ends the loop. -/
theorem fetchTokenSetInfo_ensures {state : FetchState} {set : TokensInSet} {dataIndex : ℕ}
    {data : ℕ → UInt8} {world : AttestationHistory × σ} (hindex : state.index = sets.length)
    (hmore : state.index < count.numIds)
    (hdataIndex : dataIndex = (attestation count sets ++ setBytes set).length)
    (hroom : dataIndex ≤ reach)
    (hdata : load data 0 dataIndex = attestation count sets ++ setBytes set)
    (hworld : world.1 = opening path count ++ (setExchanges sets ++ [tokensExchange sets set])) :
    Ensures (observing attestationHandler environment)
      (fetchTokenSetInfo reach count.numIds state hmore dataIndex data) world fun outcome world ↦
        match outcome with
        | .inl next => ∃ sets, Fetching reach path count sets next.val world.1
        | .inr outcome => LoopEnd reach path count outcome world.1 := by
  have hleft : sets.length < count.numIds := hindex ▸ hmore
  subst hdataIndex
  rw [fetchTokenSetInfo]
  by_cases hfull : (attestation count sets ++ setBytes set).length ≥ maxAttestationSize
  · rw [if_pos hfull]
    refine (ensures_done _ _ _).mpr ?_
    rw [hworld]
    exact .full_of_tokens hleft hfull hroom
  · rw [if_neg hfull, ensures_bind, ensures_request]
    rintro reply ⟨now, device⟩ ⟨hnow, hrun⟩
    obtain ⟨reply, rfl, haccepted⟩ := htoolGetTokenSetInfo_ensures environment _ _ _ _ hrun
    rw [hworld, hindex, List.append_assoc, List.append_assoc, List.singleton_append] at hnow
    dsimp only at hnow ⊢
    subst hnow
    cases reply with
    | failed status hnonzero =>
      refine (ensures_done _ _ _).mpr (.failed hnonzero
        ((aboutSets_setExchanges sets).append (by simp [AboutSets, tokensExchange])) ?_)
      rw [copied_opening_append, copied_tokensExchange]
      simpa [copiedFrom] using Nat.lt_of_not_le hfull
    | accepted info =>
      by_cases hfits : (attestation count sets ++ setBytes set).length + info.length ≤ reach
      · dsimp only
        rw [storeWithin_of_le data hfits]
        exact (ensures_done _ _ _).mpr ⟨_, .next hindex hleft haccepted hfits hdata⟩
      · dsimp only
        rw [storeWithin_of_lt data (Nat.lt_of_not_le hfits)]
        refine (ensures_done _ _ _).mpr (.overflow
          ((aboutSets_setExchanges sets).append (by simp [AboutSets, tokensExchange])) ?_)
        rw [copied_opening_append, copied_tokensExchange]
        simpa [copiedFrom, Nat.add_assoc] using Nat.lt_of_not_le hfits

/-- After the last round the file gets the whole attestation. -/
theorem writeAttestation_ensures {state : FetchState} {world : AttestationHistory × σ}
    (hfetching : Fetching reach path count sets state world.1)
    (hall : ¬state.index < count.numIds) :
    Ensures (observing attestationHandler environment) (writeAttestation reach state) world
      fun outcome world ↦ LoopEnd reach path count outcome world.1 := by
  have hcount : sets.length = count.numIds :=
    Nat.le_antisymm hfetching.index_le (Nat.le_of_not_lt (hfetching.index_eq ▸ hall))
  have hload : loadWithin reach state.data 0 state.dataIndex =
      .ok (attestation count sets) := by
    rw [loadWithin_of_le _ (by rw [Nat.zero_add, hfetching.dataIndex_eq]; exact hfetching.room),
      hfetching.data_eq]
  rw [writeAttestation, hload]
  dsimp only
  rw [ensures_bind, ensures_request]
  rintro _ ⟨now, device⟩ ⟨hnow, -⟩
  refine (ensures_done _ _ _).mpr ?_
  rw [hfetching.history_eq, List.append_assoc] at hnow
  dsimp only at hnow ⊢
  subst hnow
  exact .written hcount hfetching.room

/-- A round copies the next set and its info, or ends the loop. -/
theorem fetchRound_ensures {state : FetchState} {world : AttestationHistory × σ}
    (hfetching : Fetching reach path count sets state world.1) :
    Ensures (observing attestationHandler environment) (fetchRound reach count.numIds state) world
      fun outcome world ↦
        match outcome with
        | .inl next => ∃ sets, Fetching reach path count sets next.val world.1
        | .inr outcome => LoopEnd reach path count outcome world.1 := by
  have hlength := hfetching.dataIndex_eq
  rw [fetchRound]
  by_cases hmore : state.index < count.numIds
  swap
  · rw [dif_neg hmore, ensures_bind]
    exact (writeAttestation_ensures hfetching hmore).mono fun outcome world hend ↦
      (ensures_done _ _ _).mpr hend
  rw [dif_pos hmore]
  by_cases hfull : state.dataIndex ≥ maxAttestationSize
  · rw [if_pos hfull, hfetching.status_eq]
    refine (ensures_done _ _ _).mpr ?_
    rw [hfetching.history_eq]
    refine .full (aboutSets_setExchanges sets) ?_ ?_ ?_ (writeFile_not_mem_setExchanges sets)
    · rw [copied_opening_setExchanges]
      exact hlength ▸ hfull
    · rw [copied_opening_setExchanges]
      exact hfetching.room
    · rw [countP_isInfo_setExchanges, ← hfetching.index_eq]
      exact hmore
  · rw [if_neg hfull, ensures_bind, ensures_request]
    rintro reply ⟨now, device⟩ ⟨hnow, hrun⟩
    obtain ⟨reply, rfl, -⟩ := htoolGetTokensInSet_ensures environment _ _ _ _ hrun
    rw [hfetching.history_eq, hfetching.index_eq, List.append_assoc] at hnow
    dsimp only at hnow ⊢
    subst hnow
    cases reply with
    | failed status hnonzero =>
      refine (ensures_done _ _ _).mpr (.failed hnonzero
        ((aboutSets_setExchanges sets).append (by simp [AboutSets])) ?_)
      rw [copied_opening_append]
      simpa [copiedFrom, ← hlength] using Nat.lt_of_not_le hfull
    | accepted set =>
      dsimp only
      by_cases hfits : state.dataIndex + (setBytes set).length ≤ reach
      · rw [copyTokensInSet_eq, storeWithin_of_le state.data hfits]
        refine fetchTokenSetInfo_ensures hfetching.index_eq hmore ?_ hfits ?_ rfl
        · rw [List.length_append, ← hlength]
        · rw [hlength]
          exact load_store_end rfl (hlength ▸ hfetching.data_eq) (setBytes set)
      · rw [copyTokensInSet_eq, storeWithin_of_lt state.data (Nat.lt_of_not_le hfits)]
        refine (ensures_done _ _ _).mpr (.overflow
          ((aboutSets_setExchanges sets).append (by simp [AboutSets])) ?_)
        rw [copied_opening_append]
        simpa [copiedFrom, ← hlength] using Nat.lt_of_not_le hfits

/-- Before the first round only the number of sets was copied. -/
theorem Fetching.first {data : ℕ → UInt8} (hreach : maxAttestationSize ≤ reach)
    (hsized : count.Sized) :
    Fetching reach path count [] ⟨0, 0, wordSize + nonceSize + signatureSize,
      store data 0 (countBytes count)⟩ (opening path count) := by
  have hattestation : attestation count [] = countBytes count := List.append_nil _
  have hlength : (countBytes count).length = wordSize + nonceSize + signatureSize :=
    length_countBytes hsized
  refine ⟨(List.append_nil _).symm, rfl, Nat.zero_le _, rfl, ?_, ?_, ?_⟩
  · rw [hattestation, hlength]
  · rw [hattestation, hlength]
    exact hreach.trans' (by decide)
  · rw [hattestation, ← hlength, load_store data (Nat.zero_add _).le, List.drop_zero,
      List.take_length]

/-- The part after the number of sets was copied. -/
theorem fetchSets_ensures (hreach : maxAttestationSize ≤ reach) (hsized : count.Sized)
    (filename : Option (List UInt8)) (data : ℕ → UInt8) {world : AttestationHistory × σ}
    (hworld : world.1 = counting count) :
    Ensures (observing attestationHandler environment)
      (fetchSets reach filename count.numIds (store data 0 (countBytes count))) world
      fun outcome world ↦ FetchEnd reach filename outcome world.1 := by
  cases filename with
  | none =>
    rw [fetchSets]
    refine (ensures_done _ _ _).mpr ?_
    rw [hworld]
    exact .unnamed hsized rfl
  | some path =>
    rw [fetchSets, ensures_bind, ensures_request]
    rintro opened ⟨now, device⟩ ⟨hnow, -⟩
    rw [hworld] at hnow
    dsimp only at hnow
    subst hnow
    split_ifs with hopened
    swap
    · obtain rfl := Bool.eq_false_of_not_eq_true hopened
      exact (ensures_done _ _ _).mpr (.unopened hsized path rfl)
    obtain rfl := hopened
    rw [ensures_bind, ensures_request]
    rintro version ⟨now, device⟩ ⟨hnow, -⟩
    rw [List.append_assoc, List.singleton_append] at hnow
    dsimp only at hnow
    subst hnow
    split_ifs with hversion
    · exact (ensures_done _ _ _).mpr (.unsupported hsized path rfl hversion)
    obtain rfl := not_not.mp hversion
    have hloop : Ensures (observing attestationHandler environment)
        (whileDecreasing (FetchState.remaining count.numIds) (fetchRound reach count.numIds)
          ⟨0, 0, wordSize + nonceSize + signatureSize, store data 0 (countBytes count)⟩)
        (opening path count, device) fun outcome world ↦
          LoopEnd reach path count outcome world.1 := by
      refine whileDecreasing_ensures
        (fun state world ↦ ∃ sets, Fetching reach path count sets state world.1) ?_ _ _
        ⟨[], .first hreach hsized⟩
      rintro state world ⟨sets, hfetching⟩
      exact (fetchRound_ensures hfetching).mono fun outcome _ h ↦ by cases outcome <;> exact h
    exact hloop.mono fun outcome world hend ↦ .entered rfl hend

/-- However the device and the file system answer, a run of the function ends in one of these
ways. -/
theorem fetch_ensures (hreach : maxAttestationSize ≤ reach) (data : ℕ → UInt8)
    (filename : Option (List UInt8)) (start : σ) :
    Ensures (observing attestationHandler environment)
      (fetchSingleAttestationFile reach data filename) ([], start)
      fun outcome world ↦ FetchEnd reach filename outcome world.1 := by
  rw [fetchSingleAttestationFile, ensures_bind, ensures_request]
  rintro present ⟨now, device⟩ ⟨hnow, -⟩
  dsimp only at hnow
  subst hnow
  split_ifs with hpresent
  swap
  · exact (ensures_done _ _ _).mpr (.uncounted minusOne_ne_zero (by simp) rfl)
  obtain rfl := hpresent
  rw [ensures_bind, ensures_request]
  rintro reply ⟨now, device⟩ ⟨hnow, hrun⟩
  obtain ⟨reply, rfl, haccepted⟩ := htoolGetTokenSetCount_ensures environment _ _ _ hrun
  dsimp only at hnow ⊢
  subst hnow
  cases reply with
  | failed status hnonzero =>
    exact (ensures_done _ _ _).mpr (.uncounted hnonzero (by simp) rfl)
  | accepted count =>
    have hsized : count.Sized := haccepted
    dsimp only
    rw [copyTokenSetCount_eq hreach hsized]
    exact fetchSets_ensures hreach hsized filename data rfl

end Loop

/-! ### Runs on a device -/

section Runs

variable {numIds : ℕ} {state : FetchState} {set : TokensInSet}

/-- A run of the function that a call stands for is a step of the function that makes the call. -/
theorem runs_request_observing {call : AttestationCall} {reply : AttestationReply call}
    {world : AttestationHistory × ToolHistory} {now : ToolHistory}
    (hcall : Runs recording (attestationHandler call) world.2 reply now) :
    Runs (observing attestationHandler recording) (request call) world reply
      (world.1 ++ [⟨call, reply⟩], now) :=
  (runs_request _ _ _ _).mpr ⟨rfl, hcall⟩

theorem runs_openFile (path : List UInt8) (opened : Bool) (history : ToolHistory) :
    Runs recording (attestationHandler (.openFile path)) history opened
      (history ++ [⟨.openFile path, opened⟩]) :=
  (runs_request _ _ _ _).mpr rfl

/-- The first half of a round. -/
theorem exists_runs_tokensInSet (hset : set.Sendable)
    (hname : appendIndexToFileName [] state.index < maxStringBufferSize)
    (world : AttestationHistory × ToolHistory) :
    ∃ now, Runs (observing attestationHandler recording)
      (request (AttestationCall.tokensInSet state.index)) world (.ok (.accepted set)) now := by
  obtain ⟨now, hcall⟩ := exists_runs_htoolGetTokensInSet hset hname world.2
  exact ⟨_, runs_request_observing hcall⟩

/-- The second half of a round, for an info that fits the buffer. -/
theorem exists_runs_fetchTokenSetInfo (hmore : state.index < numIds) {info : List UInt8}
    (hinfo : info.length = tokenSetInfoSize) {dataIndex : ℕ}
    (hfits : dataIndex + info.length ≤ maxAttestationSize) (data : ℕ → UInt8)
    (world : AttestationHistory × ToolHistory) :
    ∃ next now, Runs (observing attestationHandler recording)
        (fetchTokenSetInfo maxAttestationSize numIds state hmore dataIndex data) world (.inl next)
        now ∧
      next.val.index = state.index + 1 ∧ next.val.dataIndex = dataIndex + tokenSetInfoSize := by
  obtain ⟨now, hcall⟩ := exists_runs_htoolGetTokenSetInfo state.index hinfo world.2
  have hroom : ¬dataIndex ≥ maxAttestationSize := by
    have hsize : info.length = 8 := hinfo
    omega
  refine ⟨⟨⟨state.index + 1, 0, dataIndex + tokenSetInfoSize, store data dataIndex info⟩, ?_⟩,
    (world.1 ++ [⟨.tokenSetInfo state.index, .ok (.accepted info)⟩], now), ?_, rfl, rfl⟩
  · simp only [FetchState.remaining]
    omega
  · rw [fetchTokenSetInfo, if_neg hroom]
    refine (runs_bind _ _ _ _ _).mpr ⟨_, _, runs_request_observing hcall, ?_⟩
    dsimp only
    rw [storeWithin_of_le data hfits]
    exact ⟨rfl, rfl⟩

/-- A round for a set that fits the buffer. -/
theorem exists_runs_fetchRound (hmore : state.index < numIds) (hset : set.Sendable)
    (hname : appendIndexToFileName [] state.index < maxStringBufferSize) {info : List UInt8}
    (hinfo : info.length = tokenSetInfoSize)
    (hfits : state.dataIndex + (setBytes set).length + info.length ≤ maxAttestationSize)
    (world : AttestationHistory × ToolHistory) :
    ∃ next now, Runs (observing attestationHandler recording)
        (fetchRound maxAttestationSize numIds state) world (.inl next) now ∧
      next.val.index = state.index + 1 ∧
      next.val.dataIndex = state.dataIndex + (setBytes set).length + tokenSetInfoSize := by
  obtain ⟨middle, htokens⟩ := exists_runs_tokensInSet hset hname world
  obtain ⟨next, now, hrest, hnext⟩ := exists_runs_fetchTokenSetInfo hmore hinfo hfits
    (store state.data state.dataIndex (setBytes set)) middle
  have hroom : ¬state.dataIndex ≥ maxAttestationSize := by
    have hsize : info.length = 8 := hinfo
    omega
  refine ⟨next, now, ?_, hnext⟩
  rw [fetchRound, dif_pos hmore, if_neg hroom]
  refine (runs_bind _ _ _ _ _).mpr ⟨_, _, htokens, ?_⟩
  dsimp only
  rw [copyTokensInSet_eq, storeWithin_of_le state.data (Nat.le_of_add_right_le hfits)]
  exact hrest

/-- A round for a set that does not fit the buffer. -/
theorem exists_runs_fetchRound_overflow (hmore : state.index < numIds) (hset : set.Sendable)
    (hname : appendIndexToFileName [] state.index < maxStringBufferSize)
    (hroom : state.dataIndex < maxAttestationSize)
    (hover : maxAttestationSize < state.dataIndex + (setBytes set).length)
    (world : AttestationHistory × ToolHistory) :
    ∃ now, Runs (observing attestationHandler recording)
      (fetchRound maxAttestationSize numIds state) world (.inr (.error .writeOutOfBounds)) now := by
  obtain ⟨middle, htokens⟩ := exists_runs_tokensInSet hset hname world
  refine ⟨middle, ?_⟩
  rw [fetchRound, dif_pos hmore, if_neg (Nat.not_le_of_lt hroom)]
  refine (runs_bind _ _ _ _ _).mpr ⟨_, _, htokens, ?_⟩
  dsimp only
  rw [copyTokensInSet_eq, storeWithin_of_lt state.data hover]
  exact ⟨rfl, rfl⟩

/-- A device can count any number of sets. -/
theorem exists_runs_counting {count : TokenSetCount} (hsized : count.Sized)
    (hnumIds : count.numIds < 2 ^ 32) (data : ℕ → UInt8) (filename : Option (List UInt8)) :
    ∃ history, ∀ {outcome : Except Fault (BitVec 32)} {final : AttestationHistory × ToolHistory},
      Runs (observing attestationHandler recording)
        (fetchSets maxAttestationSize filename count.numIds (store data 0 (countBytes count)))
        (counting count, history) outcome final →
      Runs (observing attestationHandler recording)
        (htoolFetchSingleAttestationFile data filename) ([], []) outcome final := by
  obtain ⟨history, hcount⟩ := exists_runs_htoolGetTokenSetCount hsized hnumIds
    [⟨.libhothDevice, true⟩]
  refine ⟨history, fun {outcome final} hrest ↦ ?_⟩
  have hpresent : Runs recording (attestationHandler .libhothDevice) [] true
      [⟨.libhothDevice, true⟩] := (runs_request _ _ _ _).mpr rfl
  refine (runs_bind _ _ _ _ _).mpr ⟨true, _, runs_request_observing hpresent, ?_⟩
  rw [if_neg (not_not.mpr rfl)]
  refine (runs_bind _ _ _ _ _).mpr ⟨_, _, runs_request_observing hcount, ?_⟩
  dsimp only
  rw [copyTokenSetCount_eq le_rfl hsized]
  exact hrest

/-- A device that has version 2 gets the loop started when the file opens. -/
theorem exists_runs_entering (count : TokenSetCount) (path : List UInt8) (data : ℕ → UInt8)
    (history : ToolHistory) :
    ∃ loopHistory, ∀ {outcome : Except Fault (BitVec 32)}
        {final : AttestationHistory × ToolHistory},
      Runs (observing attestationHandler recording)
        (whileDecreasing (FetchState.remaining count.numIds)
          (fetchRound maxAttestationSize count.numIds)
          ⟨0, 0, wordSize + nonceSize + signatureSize, data⟩) (opening path count, loopHistory)
        outcome final →
      Runs (observing attestationHandler recording)
        (fetchSets maxAttestationSize (some path) count.numIds data) (counting count, history)
        outcome final := by
  obtain ⟨loopHistory, hversion⟩ := exists_runs_htoolGetSecurityVersion
    (history ++ [⟨.openFile path, true⟩])
  refine ⟨loopHistory, fun {outcome final} hrest ↦ ?_⟩
  refine (runs_bind _ _ _ _ _).mpr ⟨true, _, runs_request_observing
    (runs_openFile path true history), ?_⟩
  rw [if_neg (not_not.mpr rfl)]
  refine (runs_bind _ _ _ _ _).mpr ⟨.v2, _, runs_request_observing hversion, ?_⟩
  rw [if_neg (not_not.mpr rfl)]
  exact hrest

/-- A count with a nonce and a signature of zeros. -/
def zeroCount (numIds : ℕ) : TokenSetCount :=
  ⟨numIds, List.replicate nonceSize 0, List.replicate signatureSize 0⟩

theorem zeroCount_sized (numIds : ℕ) : (zeroCount numIds).Sized :=
  ⟨List.length_replicate, List.length_replicate⟩

/-- A set of 53 tokens. -/
def tokens53 : TokensInSet :=
  ⟨List.replicate (53 * tokenByteSize) 0, List.replicate nonceSize 0,
    List.replicate signatureSize 0⟩

theorem tokens53_sizes : [tokens53.tokens, tokens53.bootNonce, tokens53.signature].map List.length =
    [53 * tokenByteSize, nonceSize, signatureSize] := by
  simp only [tokens53, List.map_cons, List.map_nil, List.length_replicate]

theorem tokens53_sendable : tokens53.Sendable where
  paddable := paddable_of_map_length tokens53_sizes (by decide)
  fits := by
    rw [length_encodeResponse_of_sizes tokens53_sizes]
    decide
  whole := by
    rw [tokens53, List.length_replicate]
    decide

theorem length_setBytes_tokens53 : (setBytes tokens53).length = 992 := by
  simp only [setBytes, tokens53, List.length_append, List.length_replicate]
  decide

end Runs

/-! ### Inside the buffer -/

theorem copied_counting (count : TokenSetCount) : copied (counting count) = countBytes count := by
  simp [counting, copiedFrom]

/-- A run ends for a copy that goes too far exactly when the copies together do. -/
theorem FetchEnd.inside_iff {reach : ℕ} (hreach : maxAttestationSize ≤ reach)
    {filename : Option (List UInt8)} {outcome : Except Fault (BitVec 32)}
    {history : AttestationHistory} (hend : FetchEnd reach filename outcome history) :
    outcome ≠ .error .writeOutOfBounds ↔ (copied history).length ≤ reach := by
  have hcount {count : TokenSetCount} (hsized : count.Sized) :
      (countBytes count).length ≤ reach := by
    rw [length_countBytes hsized]
    exact hreach.trans' (by decide)
  cases hend with
  | uncounted hnonzero hnone hcopied => simp [hcopied]
  | unnamed hsized hname => simpa [copied_counting] using hcount hsized
  | unopened hsized path hname => simpa [copied_counting, copiedFrom] using hcount hsized
  | unsupported hsized path hname hversion =>
    simpa [copied_counting, copiedFrom] using hcount hsized
  | entered hname hloop =>
    cases hloop with
    | failed hnonzero habout hroom => simpa using hroom.le.trans hreach
    | overflow habout hover => simpa using hover
    | full habout hfull hroom hmissing hunwritten => simpa using hroom
    | written hall hroom =>
      rw [copied_opening_append]
      simpa [copiedFrom] using hroom

/-- Whatever the device answers, `htool_fetch_single_attestation_file` stays inside its buffer
exactly when the replies that it accepts are together not larger than the buffer. -/
theorem fetch_stays_inside_iff {σ : Type} (environment : Environment ToolReply σ)
    (data : ℕ → UInt8) (filename : Option (List UInt8)) (start : σ) :
    Ensures (observing attestationHandler environment)
      (htoolFetchSingleAttestationFile data filename) ([], start) fun outcome world ↦
        outcome ≠ .error .writeOutOfBounds ↔ (copied world.1).length ≤ maxAttestationSize :=
  (fetch_ensures le_rfl data filename start).mono fun _ _ hend ↦ hend.inside_iff le_rfl

/-- The attestation of two sets of 53 tokens each does not fit the buffer. -/
theorem fetch_leaves_buffer :
    ∃ final, Runs (observing attestationHandler recording)
      (htoolFetchSingleAttestationFile (fun _ ↦ 0) (some [97])) ([], [])
      (.error .writeOutOfBounds) final := by
  obtain ⟨history, hstart⟩ := exists_runs_counting (zeroCount_sized 2) (by decide) (fun _ ↦ 0)
    (some [97])
  obtain ⟨loopHistory, hloop⟩ := exists_runs_entering (zeroCount 2) [97]
    (store (fun _ ↦ 0) 0 (countBytes (zeroCount 2))) history
  have hinfo : (List.replicate tokenSetInfoSize (0 : UInt8)).length = tokenSetInfoSize :=
    List.length_replicate
  have hmore : (⟨0, 0, wordSize + nonceSize + signatureSize,
      store (fun _ ↦ 0) 0 (countBytes (zeroCount 2))⟩ : FetchState).index <
        (zeroCount 2).numIds := by decide
  obtain ⟨next, middle, hround, hindex, hdataIndex⟩ := exists_runs_fetchRound hmore
    tokens53_sendable (by decide) hinfo (by rw [length_setBytes_tokens53, hinfo]; decide)
    (opening [97] (zeroCount 2), loopHistory)
  rw [length_setBytes_tokens53] at hdataIndex
  have hagain : next.val.index < (zeroCount 2).numIds := by
    rw [hindex]
    decide
  obtain ⟨final, hlast⟩ := exists_runs_fetchRound_overflow hagain tokens53_sendable
    (by rw [hindex]; decide) (by rw [hdataIndex]; decide)
    (by rw [hdataIndex, length_setBytes_tokens53]; decide) middle
  refine ⟨final, hstart (hloop ?_)⟩
  exact (runs_whileDecreasing _ _ _ _).mpr ⟨_, _, hround,
    (runs_whileDecreasing _ _ _ _).mpr ⟨_, _, hlast, rfl, rfl⟩⟩

/-! ### Returning zero -/

section ReturningZero

variable {path : List UInt8} {count : TokenSetCount} {rest : AttestationHistory}

theorem AboutSets.not_mem {exchange : Exchange AttestationReply} (habout : AboutSets rest)
    (hother : match exchange.1 with
      | .tokensInSet _ | .tokenSetInfo _ | .writeFile _ => False
      | _ => True) : exchange ∉ rest := by
  intro hmem
  have hset := habout exchange hmem
  obtain ⟨call, reply⟩ := exchange
  cases call <;> trivial

/-- In the loop the function has a name, an open file and a device with version 2, so only a full
buffer can make it give up. -/
theorem unhindered_of_entered (habout : AboutSets rest)
    (hroom : maxAttestationSize ≤ (copied (opening path count ++ rest)).length →
      rest.countP isInfo = count.numIds) :
    Unhindered (some path) (opening path count ++ rest) := by
  refine ⟨Option.some_ne_none _, fun name hmem ↦ ?_, fun version hmem ↦ ?_,
    fun hfull counted hmem ↦ ?_⟩
  · rcases List.mem_append.mp hmem with hopening | hrest
    · simp [opening, counting] at hopening
    · exact absurd hrest (habout.not_mem trivial)
  · rcases List.mem_append.mp hmem with hopening | hrest
    · simpa [opening, counting] using hopening
    · exact absurd hrest (habout.not_mem trivial)
  · rcases List.mem_append.mp hmem with hopening | hrest
    · have hcounted : counted = count := by simpa [opening, counting] using hopening
      rw [hcounted, List.countP_append]
      simpa [opening, counting, isInfo] using hroom hfull
    · exact absurd hrest (habout.not_mem trivial)

theorem tokenSetCount_mem :
    ⟨.tokenSetCount, .ok (.accepted count)⟩ ∈ opening path count ++ rest := by
  simp [opening, counting]

/-- Without the write there is no complete attestation. -/
theorem not_complete {filename : Option (List UInt8)} {history : AttestationHistory}
    (hunwritten : ∀ contents, ⟨.writeFile contents, ()⟩ ∉ history) :
    ¬Complete filename history := by
  rintro ⟨-, counted, sets, -, -, -, hwritten⟩
  exact hunwritten _ hwritten

/-- After the last round the attestation is complete. -/
theorem complete_of_written {sets : List (TokensInSet × List UInt8)}
    (hall : sets.length = count.numIds) :
    Complete (some path) (opening path count ++
      (setExchanges sets ++ [⟨.writeFile (attestation count sets), ()⟩])) := by
  refine ⟨⟨path, rfl, by simp [opening]⟩, count, sets, by simp [opening, counting], hall,
    fun index set hset ↦ ?_, by simp⟩
  have hmem {exchange : Exchange AttestationReply} (hround : exchange ∈
      [(⟨.tokensInSet index, .ok (.accepted set.1)⟩ : Exchange AttestationReply),
        ⟨.tokenSetInfo index, .ok (.accepted set.2)⟩]) :
      exchange ∈ opening path count ++
        (setExchanges sets ++ [⟨.writeFile (attestation count sets), ()⟩]) := by
    refine List.mem_append_right _ (List.mem_append_left _ ?_)
    exact List.mem_flatMap.mpr ⟨(set, index), List.mem_zipIdx_iff_getElem?.mpr hset, hround⟩
  exact ⟨hmem (by simp), hmem (by simp)⟩

/-- A run that returns a status gave the complete attestation for a zero exactly when nothing made
the function give up after the sets were counted. -/
theorem FetchEnd.returns_zero_iff {reach : ℕ} {filename : Option (List UInt8)} {status : BitVec 32}
    {history : AttestationHistory} (hend : FetchEnd reach filename (.ok status) history) :
    (status = 0 → Complete filename history) ↔
      ((∃ count, ⟨.tokenSetCount, .ok (.accepted count)⟩ ∈ history) →
        Unhindered filename history) := by
  have hcounted (count : TokenSetCount) (rest : AttestationHistory) :
      ∃ counted, ⟨.tokenSetCount, .ok (.accepted counted)⟩ ∈ counting count ++ rest :=
    ⟨count, by simp [counting]⟩
  cases hend with
  | uncounted hnonzero hnone hcopied =>
    exact iff_of_true (fun hzero ↦ absurd hzero hnonzero)
      fun ⟨count, hcount⟩ ↦ absurd hcount (hnone count)
  | unnamed hsized hname =>
    refine iff_of_false (fun hcomplete ↦ not_complete ?_ (hcomplete rfl))
      fun hunhindered ↦ (hunhindered ?_).named hname
    · simp [counting]
    · simpa using hcounted _ []
  | unopened hsized path hname =>
    refine iff_of_false (fun hcomplete ↦ not_complete ?_ (hcomplete rfl))
      fun hunhindered ↦ (hunhindered (hcounted _ _)).opened path (by simp)
    simp [counting]
  | unsupported hsized path hname hversion =>
    refine iff_of_false (fun hcomplete ↦ not_complete ?_ (hcomplete rfl))
      fun hunhindered ↦ hversion ((hunhindered (hcounted _ _)).supported _ (by simp))
    simp [counting]
  | entered hname hloop =>
    obtain rfl := hname
    cases hloop with
    | failed hnonzero habout hroom =>
      exact iff_of_true (fun hzero ↦ absurd hzero hnonzero) fun _ ↦
        unhindered_of_entered habout fun hfull ↦ absurd hfull hroom.not_ge
    | full habout hfull hroom hmissing hunwritten =>
      refine iff_of_false (fun hcomplete ↦ not_complete ?_ (hcomplete rfl)) fun hunhindered ↦ ?_
      · simpa [opening, counting] using hunwritten
      · have hinfos := (hunhindered ⟨_, tokenSetCount_mem⟩).room hfull _ tokenSetCount_mem
        rw [List.countP_append, countP_isInfo_opening, Nat.zero_add] at hinfos
        exact absurd hinfos hmissing.ne
    | written hall hroom =>
      refine iff_of_true (fun _ ↦ complete_of_written hall) fun _ ↦
        unhindered_of_entered ?_ fun _ ↦ ?_
      · exact (aboutSets_setExchanges _).append (by simp [AboutSets])
      · rw [List.countP_append, countP_isInfo_setExchanges, hall]
        rfl

end ReturningZero

/-- Whatever the device and the file system answer, and however many bytes behind the buffer the
copies may change, a zero from `htool_fetch_single_attestation_file` means a complete attestation
exactly when, once the sets were counted, there is a file to write, the device keeps its version 2,
and the replies stay below the size of the buffer or the info of no set is missing. A run that
returns no status copied more than there was to change. -/
theorem fetch_returns_zero_iff {σ : Type} (environment : Environment ToolReply σ) (behind : ℕ)
    (data : ℕ → UInt8) (filename : Option (List UInt8)) (start : σ) :
    Ensures (observing attestationHandler environment)
      (fetchSingleAttestationFile (maxAttestationSize + behind) data filename) ([], start)
      fun outcome world ↦
        match outcome with
        | .error _ => maxAttestationSize + behind < (copied world.1).length
        | .ok status => (status = 0 → Complete filename world.1) ↔
          ((∃ count, ⟨.tokenSetCount, .ok (.accepted count)⟩ ∈ world.1) →
            Unhindered filename world.1) := by
  have hreach : maxAttestationSize ≤ maxAttestationSize + behind := Nat.le_add_right _ _
  refine (fetch_ensures hreach data filename start).mono ?_
  rintro outcome ⟨history, device⟩ hend
  cases outcome with
  | error fault =>
    cases hend with
    | entered hname hloop =>
      cases hloop with
      | overflow habout hover => exact hover
  | ok status => exact hend.returns_zero_iff

/-- When the file cannot be opened, the function returns the zero of the count before. -/
theorem fetch_returns_zero_without_file :
    ∃ world, Runs (observing attestationHandler recording)
        (htoolFetchSingleAttestationFile (fun _ ↦ 0) (some [97])) ([], []) (.ok 0) world ∧
      ¬Complete (some [97]) world.1 := by
  obtain ⟨history, hstart⟩ := exists_runs_counting (zeroCount_sized 1) (by decide) (fun _ ↦ 0)
    (some [97])
  refine ⟨(counting (zeroCount 1) ++ [⟨.openFile [97], false⟩],
    history ++ [⟨.openFile [97], false⟩]), hstart ?_, not_complete (by simp [counting])⟩
  refine (runs_bind _ _ _ _ _).mpr ⟨false, _, runs_request_observing
    (runs_openFile [97] false history), ?_⟩
  rw [if_pos Bool.false_ne_true]
  exact ⟨rfl, rfl⟩

end Libhoth.Examples.AttestationFile
