import Libhoth.Protocol.DfuHostcmd

/-!
# Installing firmware on an arbitrary device

`libhothDfuInstallFirmware_safe` is the contract of `libhoth_dfu_install_firmware` against a device
that may answer anything to each call: success rests on the last version reply, no data is written
before the bundle and the first version reply have passed the anti-rollback gate, at most two
sessions are started, and a call that ends the installation (`EndsInstall`) is the last one.

The proof is by histories. `Installing` says that nothing so far ended the installation and what
the version replies were; a session keeps it or halts (`libhothDfuUpdate_ensures`), and the sessions
of one installation follow by induction (`installSessions_ensures`).
-/

set_option autoImplicit false
set_option relaxedAutoImplicit false

namespace Libhoth.Protocol.DfuInstall

open Foundation.ByteString Foundation.CheckedAccess Foundation.InteractingProgram
open Status HostCommand HostCommandProgram OpentitanVersion DfuHostcmd

/-! ### Reading a history -/

/-- An exchange that sends a chunk of an image. -/
def WritesData (exchange : Exchange DfuReply) : Prop :=
  match exchange.1 with
  | .host call => call.command = hothCmdDfuWrite
  | _ => False

/-- An exchange that starts a session on the device. -/
def StartsSession (exchange : Exchange DfuReply) : Prop :=
  match exchange.1 with
  | .host call => call.command = hothCmdDfuWrite ∧
      wordAt call.payload 12 4 = hothDfuWriteFlagsNewSession
  | _ => False

instance (exchange : Exchange DfuReply) : Decidable (StartsSession exchange) := by
  unfold StartsSession
  split <;> infer_instance

/-- The number of sessions started. -/
def sessionStarts (history : DfuHistory) : ℕ :=
  history.countP (StartsSession ·)

/-- The reply of a version query: `none` inside for one that failed. -/
def versionReply : Exchange DfuReply → Option (Option OpentitanGetVersionResp)
  | ⟨.host call, .failed _ _⟩ =>
    if call.command = getVersionCall.command then some none else none
  | ⟨.host call, .accepted payload _⟩ =>
    if call.command = getVersionCall.command then some (some (decodeGetVersionResp payload))
    else none
  | _ => none

/-- The replies of the version queries, in order. -/
def versionReplies (history : DfuHistory) : List (Option OpentitanGetVersionResp) :=
  history.filterMap versionReply

/-- An exchange that ends an installation: a failed write, version query, nonce or reconnect, or
a version reply after a session that fails the check of the booted slots. -/
def EndsInstall (desiredRomExt desiredApp : OpentitanImageVersion) (before : DfuHistory) :
    Exchange DfuReply → Prop
  | ⟨.host call, .failed _ _⟩ =>
    call.command = hothCmdDfuWrite ∨ call.command = getVersionCall.command
  | ⟨.host call, .accepted payload _⟩ =>
    call.command = getVersionCall.command ∧ (∃ earlier ∈ before, StartsSession earlier) ∧
      libhothOtCheckUpdateSuccessful (decodeGetVersionResp payload) desiredRomExt desiredApp = false
  | ⟨.getRandom, nonce⟩ => nonce = none
  | ⟨.reconnect, err⟩ => err ≠ hothSuccess

/-- What an installation owes its caller, whatever the device answers. -/
structure InstallContract (image : List UInt8) (err : LibhothError) (history : DfuHistory) :
    Prop where
  complete : err = hothSuccess → ∃ romExt app resp,
    libhothExtractOtBundle image = .ok (some (romExt, app)) ∧
      (versionReplies history).getLast? = some (some resp) ∧
      libhothUpdateComplete resp romExt app = hothSuccess
  gated : ∀ exchange ∈ history, WritesData exchange → ∃ romExt app resp,
    libhothExtractOtBundle image = .ok (some (romExt, app)) ∧
      (versionReplies history).head? = some (some resp) ∧
      resp.bl0MinSecVer ≤ app.securityVersion
  sessions : sessionStarts history ≤ 2
  ended : ∀ romExt app, libhothExtractOtBundle image = .ok (some (romExt, app)) →
    ∀ before exchange after, history = before ++ exchange :: after →
      EndsInstall romExt app before exchange → after = [] ∧ err ≠ hothSuccess

@[simp] theorem sessionStarts_append (first second : DfuHistory) :
    sessionStarts (first ++ second) = sessionStarts first + sessionStarts second :=
  List.countP_append

@[simp] theorem versionReplies_append (first second : DfuHistory) :
    versionReplies (first ++ second) = versionReplies first ++ versionReplies second :=
  List.filterMap_append

theorem sessionStarts_singleton (exchange : Exchange DfuReply) :
    sessionStarts [exchange] = if StartsSession exchange then 1 else 0 := by
  simp only [sessionStarts, List.countP_singleton, decide_eq_true_eq]

section Exchanges

variable {call : HostCommand} (reply : DfuReply (.host call))

theorem versionReply_of_ne (hother : call.command ≠ getVersionCall.command) :
    versionReply ⟨.host call, reply⟩ = none := by
  cases reply <;> exact if_neg hother

theorem sessionStarts_of_ne (hother : call.command ≠ hothCmdDfuWrite) :
    sessionStarts [⟨.host call, reply⟩] = 0 := by
  simp [sessionStarts, StartsSession, hother]

theorem not_endsInstall_of_ne (desiredRomExt desiredApp : OpentitanImageVersion)
    (before : DfuHistory) (hwrite : call.command ≠ hothCmdDfuWrite)
    (hversion : call.command ≠ getVersionCall.command) :
    ¬EndsInstall desiredRomExt desiredApp before ⟨.host call, reply⟩ := by
  cases reply with
  | failed err nonzero => exact fun hends ↦ hends.elim hwrite hversion
  | accepted payload fits => exact fun hends ↦ hversion hends.1

end Exchanges

theorem dfuWriteCall_command_ne (sessionId : HothDfuSessionId) (flags : ℕ) (data : List UInt8) :
    (dfuWriteCall sessionId flags data).command ≠ getVersionCall.command :=
  show hothCmdDfuWrite ≠ getVersionCall.command by decide

theorem dfuCompleteCall_command_ne (sessionId : HothDfuSessionId) (flags : UInt32) :
    (dfuCompleteCall sessionId flags).command ≠ hothCmdDfuWrite ∧
      (dfuCompleteCall sessionId flags).command ≠ getVersionCall.command :=
  show hothCmdDfuComplete ≠ hothCmdDfuWrite ∧ hothCmdDfuComplete ≠ getVersionCall.command by decide

theorem wordAt_dfuWriteCall (sessionId : HothDfuSessionId) {flags : ℕ} (hflags : flags < 2 ^ 32)
    (data : List UInt8) : wordAt (dfuWriteCall sessionId flags data).payload 12 4 = flags := by
  rw [wordAt, slice, dfuWriteCall, List.append_assoc,
    List.drop_left' sessionId.length_encode, List.take_left' (length_toLittleEndian _ _)]
  exact littleEndian_toLittleEndian_of_lt hflags

/-- The first chunk starts a session, and no other does. -/
theorem sessionStarts_dfuWriteCall (sessionId : HothDfuSessionId) (bytesSent : ℕ)
    (data : List UInt8)
    (reply : DfuReply (.host (dfuWriteCall sessionId (dfuWriteFlags bytesSent) data))) :
    sessionStarts [⟨_, reply⟩] = if bytesSent = 0 then 1 else 0 := by
  have hflags : dfuWriteFlags bytesSent < 2 ^ 32 := by
    unfold dfuWriteFlags
    split_ifs <;> decide
  have hword := wordAt_dfuWriteCall sessionId hflags data
  have hcommand : (dfuWriteCall sessionId (dfuWriteFlags bytesSent) data).command =
      hothCmdDfuWrite := rfl
  simp only [sessionStarts, List.countP_singleton, StartsSession, hword, hcommand, true_and]
  by_cases hfirst : bytesSent = 0
  · simp [dfuWriteFlags, hfirst]
  · simp [dfuWriteFlags, hfirst, hothDfuWriteFlagsNewSession]

/-! ### A session -/

section Sessions

variable {desiredRomExt desiredApp : OpentitanImageVersion} {history : DfuHistory}

/-- A session part way through: the exchanges since its start ask for no version, and they start
at most the given number of sessions. -/
structure SessionTail (started : ℕ) (tail : DfuHistory) : Prop where
  versions : versionReplies tail = []
  starts : sessionStarts tail ≤ started

theorem SessionTail.nil : SessionTail 0 [] where
  versions := rfl
  starts := le_rfl

/-- One more exchange of a session. -/
theorem SessionTail.snoc {started : ℕ} {tail : DfuHistory} (htail : SessionTail started tail)
    {exchange : Exchange DfuReply} (hversion : versionReply exchange = none) (bound : ℕ)
    (hstart : started + sessionStarts [exchange] ≤ bound) :
    SessionTail bound (tail ++ [exchange]) where
  versions := by
    rw [versionReplies_append, htail.versions]
    simp [versionReplies, hversion]
  starts := by
    have hstarts := htail.starts
    rw [sessionStarts_append]
    omega

/-- A history that stopped: nothing before its last exchange ended the installation. -/
def Halted (desiredRomExt desiredApp : OpentitanImageVersion) (history : DfuHistory) : Prop :=
  ∃ before last, history = before ++ [last] ∧ Unbroken (EndsInstall desiredRomExt desiredApp) before

/-- How the write loop and a session end: they add a session tail and either nothing in it ended
the installation or it halted. -/
def SessionOutcome (desiredRomExt desiredApp : OpentitanImageVersion) (history : DfuHistory)
    (err : LibhothError) (final : DfuHistory) : Prop :=
  (∃ tail, final = history ++ tail ∧ SessionTail 1 tail) ∧
    (err = hothSuccess ∧ Unbroken (EndsInstall desiredRomExt desiredApp) final ∨
      err ≠ hothSuccess ∧ Halted desiredRomExt desiredApp final)

/-- A last exchange: the session succeeded with it, or halted on it. -/
theorem sessionOutcome_snoc {tail : DfuHistory} (exchange : Exchange DfuReply) {err : LibhothError}
    (htail : SessionTail 1 (tail ++ [exchange]))
    (hunbroken : Unbroken (EndsInstall desiredRomExt desiredApp) (history ++ tail))
    (herr : err = hothSuccess → ¬EndsInstall desiredRomExt desiredApp (history ++ tail) exchange) :
    SessionOutcome desiredRomExt desiredApp history err (history ++ tail ++ [exchange]) := by
  refine ⟨⟨tail ++ [exchange], List.append_assoc _ _ _, htail⟩, ?_⟩
  by_cases hsuccess : err = hothSuccess
  · exact .inl ⟨hsuccess, hunbroken.snoc (herr hsuccess)⟩
  · exact .inr ⟨hsuccess, _, _, rfl, hunbroken⟩

/-- The write loop sends the image or halts on a failed write, and starts at most one session. -/
theorem dfuWrite_ensures (image : List UInt8) (sessionId : HothDfuSessionId) (tail : DfuHistory)
    (htail : SessionTail 0 tail)
    (hunbroken : Unbroken (EndsInstall desiredRomExt desiredApp) (history ++ tail)) :
    Ensures recording (dfuWrite image sessionId) (history ++ tail)
      (SessionOutcome desiredRomExt desiredApp history) := by
  refine whileDecreasing_ensures
    (fun bytesSent past ↦ ∃ tail, past = history ++ tail ∧
      SessionTail (if bytesSent = 0 then 0 else 1) tail ∧
      Unbroken (EndsInstall desiredRomExt desiredApp) past)
    ?_ 0 _ ⟨tail, rfl, htail, hunbroken⟩
  rintro bytesSent _ ⟨tail, rfl, htail, hunbroken⟩
  unfold dfuWriteRound
  by_cases hmore : bytesSent < image.length
  · rw [dif_pos hmore]
    simp only [dfuHost, ensures_bind, ensures_request, recording_iff]
    rintro reply _ rfl
    have hnext := htail.snoc (versionReply_of_ne reply (dfuWriteCall_command_ne _ _ _)) 1 (by
      rw [sessionStarts_dfuWriteCall]
      split_ifs <;> omega)
    cases reply with
    | failed err nonzero =>
      simp only [pure_eq_done, ensures_done]
      exact sessionOutcome_snoc _ hnext hunbroken fun hsuccess ↦ absurd hsuccess nonzero
    | accepted response fits =>
      simp only [pure_eq_done]
      split_ifs
      · rw [ensures_done]
        exact sessionOutcome_snoc _ hnext hunbroken fun hsuccess ↦
          absurd hsuccess (cmdExecStatus_ne_success _)
      · rw [ensures_done]
        refine ⟨tail ++ [_], List.append_assoc _ _ _, ?_, hunbroken.snoc fun hends ↦ ?_⟩
        · rw [if_neg (by simp only [dfuChunkSize]; omega)]
          exact hnext
        · exact absurd hends.1 (dfuWriteCall_command_ne _ _ _)
  · rw [dif_neg hmore, pure_eq_done, ensures_done]
    exact ⟨⟨tail, rfl, htail.versions, htail.starts.trans (by split_ifs <;> omega)⟩,
      .inl ⟨rfl, hunbroken⟩⟩

/-- A session on a history that nothing has ended: it succeeds and nothing in it ended the
installation, or it halts. -/
theorem libhothDfuUpdate_ensures (image : List UInt8) (completeFlags : UInt32)
    (hunbroken : Unbroken (EndsInstall desiredRomExt desiredApp) history) :
    Ensures recording (libhothDfuUpdate image completeFlags) history
      (SessionOutcome desiredRomExt desiredApp history) := by
  simp only [libhothDfuUpdate, ensures_bind, ensures_request, recording_iff]
  rintro nonce _ rfl
  have hrandom : SessionTail 0 ([] ++ [⟨DfuCall.getRandom, nonce⟩]) := .snoc .nil rfl 0 le_rfl
  cases nonce with
  | none =>
    simp only [pure_eq_done, ensures_done]
    exact ⟨⟨_, rfl, hrandom.versions, hrandom.starts.trans (Nat.zero_le 1)⟩,
      .inr ⟨cmdExecStatus_ne_success _, _, _, rfl, hunbroken⟩⟩
  | some nonce =>
    have hdrawn : Unbroken (EndsInstall desiredRomExt desiredApp)
        (history ++ [⟨DfuCall.getRandom, some nonce⟩]) :=
      hunbroken.snoc fun hends ↦ absurd hends (Option.some_ne_none nonce)
    simp only [ensures_bind]
    refine (dfuWrite_ensures image _ _ hrandom hdrawn).mono fun err past hwrite ↦ ?_
    obtain ⟨⟨tail, rfl, htail⟩, ⟨rfl, hwritten⟩ | ⟨herr, hhalted⟩⟩ := hwrite
    · simp only [ne_eq, not_true, if_false, dfuHost, ensures_bind, ensures_request, recording_iff]
      rintro completed _ rfl reconnected _ rfl
      obtain ⟨hnotWrite, hnotVersion⟩ :=
        dfuCompleteCall_command_ne ⟨nonce, hothDfuTargetEarlgreyFwUpdate⟩ completeFlags
      have hdone := hwritten.snoc (not_endsInstall_of_ne completed desiredRomExt desiredApp
        (history ++ tail) hnotWrite hnotVersion)
      have hcompleted := htail.snoc (versionReply_of_ne completed hnotVersion) 1
        (by rw [sessionStarts_of_ne completed hnotWrite])
      rw [List.append_assoc history tail] at hdone ⊢
      exact sessionOutcome_snoc ⟨DfuCall.reconnect, reconnected⟩
        (hcompleted.snoc rfl 1 le_rfl) hdone fun hsuccess hends ↦ hends hsuccess
    · rw [if_pos herr, pure_eq_done, ensures_done]
      exact ⟨⟨tail, rfl, htail⟩, .inr ⟨herr, hhalted⟩⟩

end Sessions

/-! ### The sessions of an installation -/

/-- The result of a version query with a given reply. -/
def queriedVersion : HostReply getVersionCall → Except LibhothError OpentitanGetVersionResp
  | .failed rv _ => .error rv
  | .accepted payload _ => .ok (decodeGetVersionResp payload)

/-- A version query is one exchange. -/
theorem ensures_queryVersion {σ : Type} (environment : Environment DfuReply σ) (state : σ)
    (post : Except LibhothError OpentitanGetVersionResp → σ → Prop) :
    Ensures environment queryVersion state post ↔
      ∀ reply final, environment state (.host getVersionCall) reply final →
        post (queriedVersion reply) final := by
  simp only [queryVersion, libhothOpentitanVersion, hostcmdExec, request, ask_bind, done_bind,
    interpret, dfuHost, ensures_ask]
  refine forall_congr' fun reply ↦ forall_congr' fun final ↦ imp_congr_right fun _ ↦ ?_
  cases reply <;> simp [interpret, queriedVersion]

section Installation

variable {desiredRomExt desiredApp : OpentitanImageVersion} {first : OpentitanGetVersionResp}

/-- An installation that goes on: nothing ended it, its first version reply was `first` and its last
one `resp`, and it started at most the given number of sessions. -/
structure Installing (desiredRomExt desiredApp : OpentitanImageVersion)
    (first resp : OpentitanGetVersionResp) (started : ℕ) (history : DfuHistory) : Prop where
  unbroken : Unbroken (EndsInstall desiredRomExt desiredApp) history
  firstReply : (versionReplies history).head? = some (some first)
  lastReply : (versionReplies history).getLast? = some (some resp)
  starts : sessionStarts history ≤ started

/-- How the sessions of an installation end: it goes on, or it halted with an error. -/
def InstallOutcome (desiredRomExt desiredApp : OpentitanImageVersion)
    (first : OpentitanGetVersionResp) (started : ℕ)
    (outcome : Except LibhothError OpentitanGetVersionResp) (history : DfuHistory) : Prop :=
  match outcome with
  | .ok resp => Installing desiredRomExt desiredApp first resp started history
  | .error err => err ≠ hothSuccess ∧ Halted desiredRomExt desiredApp history ∧
      (versionReplies history).head? = some (some first) ∧ sessionStarts history ≤ started

theorem head?_append_of_head? {α : Type*} {items : List α} {value : α}
    (hhead : items.head? = some value) (rest : List α) : (items ++ rest).head? = some value := by
  rw [List.head?_append, hhead, Option.some_or]

/-- The sessions of an installation, by induction on their number: a session and the version query
and check after it keep the installation going or end it. -/
theorem installSessions_ensures (image : List UInt8) (completeFlags : UInt32) (sessions : ℕ)
    (resp : OpentitanGetVersionResp) (started : ℕ) (history : DfuHistory)
    (hinstalling : Installing desiredRomExt desiredApp first resp started history) :
    Ensures recording
      (installSessions image completeFlags desiredRomExt desiredApp sessions resp) history
      (InstallOutcome desiredRomExt desiredApp first (started + sessions)) := by
  induction sessions generalizing resp started history with
  | zero => exact (ensures_done _ _ _).mpr hinstalling
  | succ sessions ih =>
    simp only [installSessions, ensures_bind]
    refine (libhothDfuUpdate_ensures image completeFlags hinstalling.unbroken).mono
      fun err past hsession ↦ ?_
    obtain ⟨⟨tail, rfl, htail⟩, hresult⟩ := hsession
    have hhead := head?_append_of_head? hinstalling.firstReply (versionReplies tail)
    have hstarts : sessionStarts (history ++ tail) ≤ started + 1 := by
      have htailStarts := htail.starts
      have hpastStarts := hinstalling.starts
      rw [sessionStarts_append]
      omega
    rw [← versionReplies_append] at hhead
    rcases hresult with ⟨rfl, hunbroken⟩ | ⟨herr, hhalted⟩
    · simp only [ne_eq, not_true, if_false, ensures_bind, ensures_queryVersion, recording_iff]
      rintro reply _ rfl
      have hhead := head?_append_of_head? hhead (versionReplies [⟨.host getVersionCall, reply⟩])
      rw [← versionReplies_append] at hhead
      have hqueried : sessionStarts (history ++ tail ++ [⟨.host getVersionCall, reply⟩]) ≤
          started + 1 := by
        rw [sessionStarts_append, sessionStarts_of_ne reply (by decide)]
        exact hstarts
      cases reply with
      | failed rv nonzero =>
        exact (ensures_done _ _ _).mpr
          ⟨nonzero, ⟨_, _, rfl, hunbroken⟩, hhead, hqueried.trans (by omega)⟩
      | accepted payload fits =>
        simp only [queriedVersion]
        split_ifs with hcheck
        · exact (ensures_done _ _ _).mpr
            ⟨cmdExecStatus_ne_success _, ⟨_, _, rfl, hunbroken⟩, hhead, hqueried.trans (by omega)⟩
        · have hnext := ih (decodeGetVersionResp payload) (started + 1) _
            { unbroken := hunbroken.snoc fun hends ↦ by
                simp only [hends.2.2, Bool.not_false, not_true] at hcheck
              firstReply := hhead
              lastReply := by
                rw [versionReplies_append]
                exact List.getLast?_concat
              starts := hqueried }
          rwa [Nat.add_right_comm, Nat.add_assoc] at hnext
    · rw [if_pos herr, pure_eq_done, ensures_done]
      exact ⟨herr, hhalted, hhead, hstarts.trans (by omega)⟩

/-- The update count is at most two. -/
theorem dfuUpdateCount_le (desiredRomExt desiredApp : OpentitanImageVersion)
    (resp : OpentitanGetVersionResp) : dfuUpdateCount desiredRomExt desiredApp resp ≤ 2 := by
  simp only [dfuUpdateCount]
  split_ifs <;> decide

/-- An installation that ended right after its first version query. -/
theorem InstallContract.of_query {image : List UInt8} {err : LibhothError}
    (herr : err ≠ hothSuccess) (reply : DfuReply (.host getVersionCall)) :
    InstallContract image err [⟨_, reply⟩] where
  complete := fun hsuccess ↦ absurd hsuccess herr
  gated := by
    intro exchange hmem hwrites
    rw [List.mem_singleton.mp hmem] at hwrites
    exact absurd hwrites (show getVersionCall.command ≠ hothCmdDfuWrite by decide)
  sessions := by
    rw [sessionStarts_of_ne reply (by decide)]
    exact Nat.zero_le 2
  ended := by
    intro romExt app _ before exchange after hsplit hends
    exact ⟨(Unbroken.nil (EndsInstall romExt app)).eq_nil_of_ends hsplit hends, herr⟩

/-- An installation that passed the gate meets the contract however its sessions ended. -/
theorem InstallContract.of_outcome {image : List UInt8}
    (hbundle : libhothExtractOtBundle image = .ok (some (desiredRomExt, desiredApp)))
    (hgate : first.bl0MinSecVer ≤ desiredApp.securityVersion)
    {outcome : Except LibhothError OpentitanGetVersionResp} {history : DfuHistory}
    (houtcome : InstallOutcome desiredRomExt desiredApp first 2 outcome history) :
    InstallContract image
      (match outcome with
        | .error err => err
        | .ok resp => libhothUpdateComplete resp desiredRomExt desiredApp) history := by
  cases outcome with
  | ok resp =>
    obtain ⟨hunbroken, hfirst, hlast, hstarts⟩ := houtcome
    refine ⟨fun hsuccess ↦ ⟨_, _, resp, hbundle, hlast, hsuccess⟩,
      fun _ _ _ ↦ ⟨_, _, first, hbundle, hfirst, hgate⟩, hstarts, ?_⟩
    intro romExt app hversions before exchange after hsplit hends
    obtain ⟨rfl, rfl⟩ :=
      Prod.mk.inj (Option.some.inj (Except.ok.inj (hbundle.symm.trans hversions)))
    exact absurd hends (hunbroken before exchange after hsplit)
  | error err =>
    obtain ⟨herr, ⟨past, last, rfl, hunbroken⟩, hfirst, hstarts⟩ := houtcome
    refine ⟨fun hsuccess ↦ absurd hsuccess herr,
      fun _ _ _ ↦ ⟨_, _, first, hbundle, hfirst, hgate⟩, hstarts, ?_⟩
    intro romExt app hversions before exchange after hsplit hends
    obtain ⟨rfl, rfl⟩ :=
      Prod.mk.inj (Option.some.inj (Except.ok.inj (hbundle.symm.trans hversions)))
    exact ⟨hunbroken.eq_nil_of_ends hsplit hends, herr⟩

/-- Every run of the installation of a bundle meets the contract. -/
theorem installBundle_ensures {image : List UInt8} (completeFlags : UInt32)
    (hbundle : libhothExtractOtBundle image = .ok (some (desiredRomExt, desiredApp))) :
    Ensures recording (installBundle image completeFlags desiredRomExt desiredApp) []
      (InstallContract image) := by
  simp only [installBundle, ensures_bind, ensures_queryVersion, recording_iff]
  rintro reply _ rfl
  cases reply with
  | failed rv nonzero => exact (ensures_done _ _ _).mpr (.of_query nonzero _)
  | accepted payload fits =>
    simp only [queriedVersion]
    split_ifs with hgate
    · exact (ensures_done _ _ _).mpr (.of_query (cmdExecStatus_ne_success _) _)
    · rw [ensures_bind]
      have hinstalling : Installing desiredRomExt desiredApp (decodeGetVersionResp payload)
          (decodeGetVersionResp payload) 0
          ([] ++ [⟨.host getVersionCall, .accepted payload fits⟩]) :=
        { unbroken := (Unbroken.nil _).snoc fun hends ↦ by
            obtain ⟨-, ⟨earlier, hmem, -⟩, -⟩ := hends
            exact absurd hmem List.not_mem_nil
          firstReply := rfl
          lastReply := rfl
          starts := Nat.le_of_eq (sessionStarts_of_ne _ (by decide)) }
      refine (installSessions_ensures image completeFlags _ _ 0 _ hinstalling).mono
        fun outcome final houtcome ↦ ?_
      have hbounded : InstallOutcome desiredRomExt desiredApp (decodeGetVersionResp payload) 2
          outcome final := by
        have hcount := dfuUpdateCount_le desiredRomExt desiredApp (decodeGetVersionResp payload)
        rw [Nat.zero_add] at houtcome
        cases outcome with
        | ok resp => exact { houtcome with starts := houtcome.starts.trans hcount }
        | error err =>
          obtain ⟨herr, hhalted, hfirst, hstarts⟩ := houtcome
          exact ⟨herr, hhalted, hfirst, hstarts.trans hcount⟩
      have hcontract := InstallContract.of_outcome hbundle (UInt32.not_lt.mp hgate) hbounded
      cases outcome <;> exact (ensures_done _ _ _).mpr hcontract

end Installation

/-- Every run of `libhoth_dfu_install_firmware` returns an error word and meets the contract: for
every image, all flags and every device. -/
theorem libhothDfuInstallFirmware_safe (image : List UInt8) (completeFlags : UInt32)
    (result : Except Fault LibhothError) (history : DfuHistory)
    (hrun : Runs recording (libhothDfuInstallFirmware image completeFlags) [] result history) :
    ∃ err, result = .ok err ∧ InstallContract image err history := by
  obtain ⟨versions, hversions⟩ := libhothExtractOtBundle_isOk image
  unfold libhothDfuInstallFirmware at hrun
  rw [hversions] at hrun
  match versions, hversions with
  | none, hversions =>
    obtain ⟨rfl, rfl⟩ := hrun
    have herr : cmdExecError .libhoth (BitVec.ofInt 64 (-1)) ≠ hothSuccess :=
      cmdExecError_ne_success _ _
    refine ⟨_, rfl, fun hsuccess ↦ absurd hsuccess herr, by simp, Nat.zero_le 2, ?_⟩
    intro romExt app hbundle
    exact absurd (hversions.symm.trans hbundle) (by simp)
  | some (romExt, app), hversions =>
    obtain ⟨err, _, hinstall, rfl, rfl⟩ := (runs_bind _ _ _ _ _).mp hrun
    exact ⟨err, rfl, installBundle_ensures completeFlags hversions err _ hinstall⟩

/-- The smallest bundle whose versions are all zero. -/
@[irreducible] def blankBundle : List UInt8 := bundleMagic ++ List.replicate 66372 0

theorem wordAt_blankBundle {offset : ℕ} (hoffset : 12 ≤ offset) (width : ℕ) :
    wordAt blankBundle offset width = 0 := by
  have hmagic : bundleMagic.drop offset = [] := List.drop_eq_nil_of_le hoffset
  rw [wordAt, slice, blankBundle, List.drop_append, hmagic, List.nil_append, List.drop_replicate,
    List.take_replicate, littleEndian_replicate_zero]

theorem libhothExtractOtBundle_blankBundle :
    libhothExtractOtBundle blankBundle = .ok (some (⟨0, 0, 0⟩, ⟨0, 0, 0⟩)) := by
  have hlength : blankBundle.length = 66384 := by
    rw [blankBundle, List.length_append, List.length_replicate]
    rfl
  have hoffset : word32 blankBundle opentitanOffsetHeaderData = 0 := by
    rw [word32, wordAt_blankBundle (by decide)]
    rfl
  have hmagic : blankBundle.take bundleMagic.length = bundleMagic := by
    rw [blankBundle, List.take_left]
  rw [libhothExtractOtBundle_of_valid hmagic (by rw [hoffset, hlength]; decide)
    (by rw [hoffset]; decide), hoffset]
  simp only [decodeImageVersion, word32]
  rw [wordAt_blankBundle (by decide), wordAt_blankBundle (by decide),
    wordAt_blankBundle (by decide), wordAt_blankBundle (by decide),
    wordAt_blankBundle (by decide), wordAt_blankBundle (by decide)]
  rfl

end Libhoth.Protocol.DfuInstall
