import Libhoth.Protocol.DfuInstall

/-!
# The commands of one DFU session

`libhothDfuUpdate_session` is what one call of `libhoth_dfu_update` puts on the wire, for every
image, all flags and every device: the writes are consecutive slices of the image under one session
id, only the first one opens the session, the session is completed exactly when every write was
accepted and the image is out, and a failing write is the last thing that is sent.

The requests are read back from the bytes of the recorded host commands (`sentRequests`). `Sending`
is the invariant of the write loop: the bytes that went out are the image up to the loop counter.
-/

set_option autoImplicit false
set_option relaxedAutoImplicit false

namespace Libhoth.Protocol.DfuSession

open Foundation.ByteString Foundation.InteractingProgram
open Status HostCommand HostCommandProgram DfuHostcmd DfuInstall

/-! ### The requests of a history -/

/-- A request of a session as the device reads it: the bytes of the session id, the flags and the
bytes behind them. -/
structure DfuRequest where
  sessionId : List UInt8
  flags : ℕ
  data : List UInt8

/-- The request in the payload of a host command. -/
def decodeDfuRequest (payload : List UInt8) : DfuRequest :=
  ⟨payload.take 12, wordAt payload 12 4, payload.drop 16⟩

/-- The request of an exchange that sends a given command. -/
def sentRequest (command : ℕ) (exchange : Exchange DfuReply) : Option DfuRequest :=
  match exchange.1 with
  | .host call => if call.command = command then some (decodeDfuRequest call.payload) else none
  | _ => none

/-- The requests that were sent with a given command, in order. -/
def sentRequests (command : ℕ) (history : DfuHistory) : List DfuRequest :=
  history.filterMap (sentRequest command)

/-- The data of requests one after the other. -/
def sentData (requests : List DfuRequest) : List UInt8 :=
  (requests.map DfuRequest.data).flatten

/-- A write that the device did not accept with an empty reply. -/
def FailsWrite : Exchange DfuReply → Prop
  | ⟨.host call, .failed _ _⟩ => call.command = hothCmdDfuWrite
  | ⟨.host call, .accepted payload _⟩ => call.command = hothCmdDfuWrite ∧ payload ≠ []
  | _ => False

/-- A write that continues the writes before it: under the session id, with the next slice of the
image, and opening the session exactly when it is the first one. -/
structure ContinuesSession (image : List UInt8) (sessionId : HothDfuSessionId)
    (before : List DfuRequest) (write : DfuRequest) : Prop where
  session : write.sessionId = sessionId.encode
  nonempty : 1 ≤ write.data.length
  limited : write.data.length ≤ 1000
  slice : write.data = slice image (sentData before).length write.data.length
  first : write.flags = if before = [] then hothDfuWriteFlagsNewSession else 0

/-- Each write continues the ones before it. -/
def SessionWrites (image : List UInt8) (sessionId : HothDfuSessionId) (writes : List DfuRequest) :
    Prop :=
  ∀ before write after, writes = before ++ write :: after →
    ContinuesSession image sessionId before write

/-- What one session owes the device and the caller. -/
structure SessionContract (image : List UInt8) (completeFlags : UInt32)
    (sessionId : HothDfuSessionId) (err : LibhothError) (history : DfuHistory) : Prop where
  commands : ∀ call reply, ⟨.host call, reply⟩ ∈ history →
    call.command = hothCmdDfuWrite ∨ call.command = hothCmdDfuComplete
  writes : SessionWrites image sessionId (sentRequests hothCmdDfuWrite history)
  completed : (∀ exchange ∈ history, ¬FailsWrite exchange) →
    sentData (sentRequests hothCmdDfuWrite history) = image →
    sentRequests hothCmdDfuComplete history = [⟨sessionId.encode, completeFlags.toNat, []⟩]
  abandoned : (∃ exchange ∈ history, FailsWrite exchange) ∨
      sentData (sentRequests hothCmdDfuWrite history) ≠ image →
    sentRequests hothCmdDfuComplete history = []
  stopped : ∀ before exchange after, history = before ++ exchange :: after →
    FailsWrite exchange → after = [] ∧ err ≠ hothSuccess

@[simp] theorem sentRequests_append (command : ℕ) (first second : DfuHistory) :
    sentRequests command (first ++ second) =
      sentRequests command first ++ sentRequests command second :=
  List.filterMap_append

@[simp] theorem sentData_append (first second : List DfuRequest) :
    sentData (first ++ second) = sentData first ++ sentData second := by
  simp [sentData]

theorem sentData_singleton (request : DfuRequest) : sentData [request] = request.data := by
  simp [sentData]

theorem decodeDfuRequest_encode (sessionId : HothDfuSessionId) {flags : ℕ} (hflags : flags < 2 ^ 32)
    (data : List UInt8) :
    decodeDfuRequest (sessionId.encode ++ toLittleEndian 4 flags ++ data) =
      ⟨sessionId.encode, flags, data⟩ := by
  have hword := wordAt_dfuWriteCall sessionId hflags data
  have hheader : (sessionId.encode ++ toLittleEndian 4 flags).length = 16 := by
    rw [List.length_append, sessionId.length_encode, length_toLittleEndian]
  simp only [dfuWriteCall] at hword
  rw [decodeDfuRequest, hword, List.drop_left' hheader, List.append_assoc,
    List.take_left' sessionId.length_encode]

theorem dfuWriteFlags_lt (bytesSent : ℕ) : dfuWriteFlags bytesSent < 2 ^ 32 := by
  unfold dfuWriteFlags
  split_ifs <;> decide

section Exchanges

variable {call : HostCommand} (reply : DfuReply (.host call))

theorem sentRequests_of_eq {command : ℕ} (hcommand : call.command = command) :
    sentRequests command [⟨.host call, reply⟩] = [decodeDfuRequest call.payload] := by
  simp [sentRequests, sentRequest, hcommand]

theorem sentRequests_of_ne {command : ℕ} (hcommand : call.command ≠ command) :
    sentRequests command [⟨.host call, reply⟩] = [] := by
  simp [sentRequests, sentRequest, hcommand]

theorem not_failsWrite_of_ne (hcommand : call.command ≠ hothCmdDfuWrite) :
    ¬FailsWrite ⟨.host call, reply⟩ := by
  cases reply with
  | failed err nonzero => exact hcommand
  | accepted payload fits => exact fun hfails ↦ hcommand hfails.1

end Exchanges

/-! ### The write loop -/

section Session

variable {image : List UInt8} {sessionId : HothDfuSessionId}

/-- The write loop when it has sent the image up to a number of bytes. -/
structure Sending (image : List UInt8) (sessionId : HothDfuSessionId) (bytesSent : ℕ)
    (history : DfuHistory) : Prop where
  commands : ∀ call reply, ⟨.host call, reply⟩ ∈ history → call.command = hothCmdDfuWrite
  writes : SessionWrites image sessionId (sentRequests hothCmdDfuWrite history)
  sent : sentData (sentRequests hothCmdDfuWrite history) = image.take bytesSent
  first : bytesSent = 0 ↔ sentRequests hothCmdDfuWrite history = []

/-- The chunk of a round. -/
def chunkAt (image : List UInt8) (bytesSent : ℕ) : List UInt8 :=
  slice image bytesSent (min dfuChunkSize (image.length - bytesSent))

theorem length_chunkAt (bytesSent : ℕ) :
    (chunkAt image bytesSent).length = min dfuChunkSize (image.length - bytesSent) := by
  rw [chunkAt, length_slice]
  omega

/-- One more write after writes that each continue the ones before. -/
theorem SessionWrites.snoc {writes : List DfuRequest} {write : DfuRequest}
    (hwrites : SessionWrites image sessionId writes)
    (hnext : ContinuesSession image sessionId writes write) :
    SessionWrites image sessionId (writes ++ [write]) := by
  intro before item after hsplit
  rcases snoc_eq_append_cons hsplit with ⟨rfl, rfl, -⟩ | ⟨rest, hrest⟩
  · exact hnext
  · exact hwrites before item rest hrest

theorem SessionWrites.nil : SessionWrites image sessionId [] := by
  intro before write after hsplit
  exact absurd hsplit.symm (List.append_ne_nil_of_right_ne_nil _ (List.cons_ne_nil _ _))

/-- The request of a round continues the session. -/
theorem Sending.continues {bytesSent : ℕ} {history : DfuHistory}
    (hsending : Sending image sessionId bytesSent history) (hmore : bytesSent < image.length) :
    ContinuesSession image sessionId (sentRequests hothCmdDfuWrite history)
      ⟨sessionId.encode, dfuWriteFlags bytesSent, chunkAt image bytesSent⟩ where
  session := rfl
  nonempty := by
    rw [length_chunkAt, dfuChunkSize]
    omega
  limited := by
    rw [length_chunkAt, dfuChunkSize]
    omega
  slice := by
    dsimp only
    rw [length_chunkAt, hsending.sent, List.length_take, min_eq_left hmore.le, chunkAt]
  first := by
    dsimp only [dfuWriteFlags]
    by_cases hfirst : bytesSent = 0
    · rw [if_pos hfirst, if_pos (hsending.first.mp hfirst)]
    · rw [if_neg hfirst, if_neg fun hnone ↦ hfirst (hsending.first.mpr hnone)]

/-- A round sends the next chunk, whatever the reply to it. -/
theorem Sending.snoc {bytesSent : ℕ} {history : DfuHistory}
    (hsending : Sending image sessionId bytesSent history) (hmore : bytesSent < image.length)
    (reply : DfuReply
      (.host (dfuWriteCall sessionId (dfuWriteFlags bytesSent) (chunkAt image bytesSent)))) :
    Sending image sessionId (bytesSent + min dfuChunkSize (image.length - bytesSent))
      (history ++ [⟨_, reply⟩]) := by
  have hrequest : sentRequests hothCmdDfuWrite (history ++ [⟨_, reply⟩]) =
      sentRequests hothCmdDfuWrite history ++
        [⟨sessionId.encode, dfuWriteFlags bytesSent, chunkAt image bytesSent⟩] := by
    have hlast : sentRequests hothCmdDfuWrite [⟨_, reply⟩] = _ := sentRequests_of_eq reply rfl
    rw [sentRequests_append, hlast]
    congr 2
    exact decodeDfuRequest_encode sessionId (dfuWriteFlags_lt bytesSent) _
  refine ⟨fun call answer hmem ↦ ?_, ?_, ?_, ?_⟩
  · rcases List.mem_append.mp hmem with hold | hnew
    · exact hsending.commands call answer hold
    · obtain ⟨hcall, -⟩ := Sigma.mk.inj (List.mem_singleton.mp hnew)
      rw [DfuCall.host.inj hcall]
      rfl
  · rw [hrequest]
    exact hsending.writes.snoc (hsending.continues hmore)
  · rw [hrequest, sentData_append, sentData_singleton, hsending.sent, List.take_add]
    rfl
  · rw [hrequest, dfuChunkSize]
    refine ⟨fun hzero ↦ ?_, fun hnil ↦ ?_⟩
    · omega
    · exact absurd hnil (List.append_ne_nil_of_right_ne_nil _ (List.cons_ne_nil _ _))

/-- A write loop that ended on a write that failed. -/
structure StoppedOnWrite (image : List UInt8) (sessionId : HothDfuSessionId) (err : LibhothError)
    (history : DfuHistory) : Prop where
  error : err ≠ hothSuccess
  sending : ∃ bytesSent, Sending image sessionId bytesSent history
  last : ∃ past call nonzero, history = past ++ [⟨.host call, .failed err nonzero⟩] ∧
    call.command = hothCmdDfuWrite ∧ ∀ earlier ∈ past, ¬FailsWrite earlier

/-- The write loop sends the whole image and every write is accepted, or it ends on a write that
failed. -/
theorem dfuWrite_ensures {start : DfuHistory} (hstart : Sending image sessionId 0 start)
    (haccepted : ∀ exchange ∈ start, ¬FailsWrite exchange) :
    Ensures recording (dfuWrite image sessionId) start fun err history ↦
      err = hothSuccess ∧ Sending image sessionId image.length history ∧
          (∀ exchange ∈ history, ¬FailsWrite exchange) ∨
        StoppedOnWrite image sessionId err history := by
  refine whileDecreasing_ensures
    (fun bytesSent history ↦ bytesSent ≤ image.length ∧ Sending image sessionId bytesSent history ∧
      ∀ exchange ∈ history, ¬FailsWrite exchange)
    ?_ 0 start ⟨Nat.zero_le _, hstart, haccepted⟩
  rintro bytesSent history ⟨hinside, hsending, haccepted⟩
  unfold dfuWriteRound
  by_cases hmore : bytesSent < image.length
  · rw [dif_pos hmore]
    simp only [dfuHost, ensures_bind, ensures_request, recording_iff]
    rintro reply _ rfl
    have hnext := hsending.snoc hmore reply
    cases reply with
    | failed err nonzero =>
      simp only [pure_eq_done, ensures_done]
      exact .inr ⟨nonzero, ⟨_, hnext⟩, _, _, nonzero, rfl, rfl, haccepted⟩
    | accepted response fits =>
      -- the call offers no room for a response
      have hempty : response.length = 0 := Nat.le_zero.mp fits
      simp only [hempty, ne_eq, not_true, if_false, pure_eq_done, ensures_done]
      have hinside : bytesSent + min dfuChunkSize (image.length - bytesSent) ≤ image.length := by
        omega
      refine ⟨hinside, hnext, forall_mem_snoc haccepted fun hfails ↦ ?_⟩
      exact hfails.2 (List.length_eq_zero_iff.mp hempty)
  · rw [dif_neg hmore, pure_eq_done, ensures_done]
    obtain rfl : bytesSent = image.length := by omega
    exact .inl ⟨rfl, hsending, haccepted⟩

/-- A history that starts with the drawing of a nonce sends nothing else yet. -/
theorem Sending.start (nonce : HothDfuNonce) :
    Sending image sessionId 0 [⟨.getRandom, some nonce⟩] where
  commands := fun _ _ hmem ↦ nomatch hmem
  writes := .nil
  sent := rfl
  first := iff_of_true rfl rfl

/-! ### The whole session -/

/-- While the image is being sent nothing completes the session. -/
theorem Sending.sentRequests_complete {bytesSent : ℕ} {history : DfuHistory}
    (hsending : Sending image sessionId bytesSent history) :
    sentRequests hothCmdDfuComplete history = [] := by
  refine List.filterMap_eq_nil_iff.mpr fun exchange hmem ↦ ?_
  obtain ⟨call, reply⟩ := exchange
  cases call with
  | host call =>
    have hcommand := hsending.commands call reply hmem
    exact if_neg (by rw [hcommand]; decide)
  | getRandom => rfl
  | reconnect => rfl

/-- A session that stopped on a failed write meets the contract. -/
theorem SessionContract.of_stopped {completeFlags : UInt32} {err : LibhothError}
    {history : DfuHistory} (hstopped : StoppedOnWrite image sessionId err history) :
    SessionContract image completeFlags sessionId err history := by
  obtain ⟨bytesSent, hsending⟩ := hstopped.sending
  obtain ⟨past, call, nonzero, rfl, hfails, hpast⟩ := hstopped.last
  have hmem : ⟨.host call, .failed err nonzero⟩ ∈
      past ++ [(⟨.host call, .failed err nonzero⟩ : Exchange DfuReply)] :=
    List.mem_append_right _ (List.mem_singleton_self _)
  refine ⟨fun call reply hcall ↦ .inl (hsending.commands call reply hcall), hsending.writes,
    fun haccepted ↦ absurd hfails (haccepted _ hmem),
    fun _ ↦ hsending.sentRequests_complete, ?_⟩
  intro before exchange after hsplit hends
  have hunbroken : Unbroken (fun _ exchange ↦ FailsWrite exchange) past := by
    intro earlier item rest hitems
    exact hpast item (hitems ▸ List.mem_append_right _ List.mem_cons_self)
  exact ⟨hunbroken.eq_nil_of_ends hsplit hends, hstopped.error⟩

/-- Completing a session and reconnecting writes nothing more. -/
theorem sentRequests_write_completed (completeFlags : UInt32) (history : DfuHistory)
    (completed : DfuReply (.host (dfuCompleteCall sessionId completeFlags)))
    (reconnected : DfuReply .reconnect) :
    sentRequests hothCmdDfuWrite (history ++ [⟨_, completed⟩] ++ [⟨_, reconnected⟩]) =
      sentRequests hothCmdDfuWrite history := by
  have hreconnect : sentRequests hothCmdDfuWrite [⟨.reconnect, reconnected⟩] = [] := rfl
  rw [sentRequests_append, sentRequests_append,
    sentRequests_of_ne completed (dfuCompleteCall_command_ne sessionId completeFlags).1, hreconnect,
    List.append_nil, List.append_nil]

/-- A session whose writes all succeeded meets the contract once it is completed and reconnected,
whatever the replies to these. -/
theorem SessionContract.of_sent {completeFlags : UInt32} {history : DfuHistory}
    (hsending : Sending image sessionId image.length history)
    (haccepted : ∀ exchange ∈ history, ¬FailsWrite exchange)
    (completed : DfuReply (.host (dfuCompleteCall sessionId completeFlags)))
    (reconnected : DfuReply .reconnect) :
    SessionContract image completeFlags sessionId reconnected
      (history ++ [⟨_, completed⟩] ++ [⟨_, reconnected⟩]) := by
  obtain ⟨hcommand, -⟩ := dfuCompleteCall_command_ne sessionId completeFlags
  have hwrites := sentRequests_write_completed completeFlags history completed reconnected
  have hcompletes : sentRequests hothCmdDfuComplete
      (history ++ [⟨_, completed⟩] ++ [⟨_, reconnected⟩]) =
      [⟨sessionId.encode, completeFlags.toNat, []⟩] := by
    have hreconnect : sentRequests hothCmdDfuComplete [⟨.reconnect, reconnected⟩] = [] := rfl
    have hlast : sentRequests hothCmdDfuComplete [⟨_, completed⟩] = _ :=
      sentRequests_of_eq completed rfl
    have hdecode := decodeDfuRequest_encode sessionId completeFlags.toNat_lt []
    rw [List.append_nil] at hdecode
    rw [sentRequests_append, sentRequests_append, hsending.sentRequests_complete, hlast, hreconnect,
      List.append_nil, List.nil_append, dfuCompleteCall, hdecode]
  have hnone : ∀ exchange ∈ history ++ [⟨_, completed⟩] ++ [⟨_, reconnected⟩],
      ¬FailsWrite exchange := by
    intro exchange hmem
    rw [List.append_assoc, List.mem_append] at hmem
    rcases hmem with hold | hnew
    · exact haccepted exchange hold
    · rcases List.mem_pair.mp hnew with rfl | rfl
      · exact not_failsWrite_of_ne completed hcommand
      · exact id
  refine ⟨?_, hwrites ▸ hsending.writes, fun _ _ ↦ hcompletes, ?_, ?_⟩
  · intro call reply hmem
    rw [List.append_assoc, List.mem_append] at hmem
    rcases hmem with hold | hnew
    · exact .inl (hsending.commands call reply hold)
    · rcases List.mem_pair.mp hnew with hcall | hcall
      · rw [DfuCall.host.inj (Sigma.mk.inj hcall).1]
        exact .inr rfl
      · exact absurd (Sigma.mk.inj hcall).1 (by simp)
  · rintro (⟨exchange, hmem, hfails⟩ | hshort)
    · exact absurd hfails (hnone exchange hmem)
    · rw [hwrites, hsending.sent, List.take_length] at hshort
      exact absurd rfl hshort
  · rintro before exchange after hsplit hfails
    exact absurd hfails (hnone exchange (hsplit ▸ List.mem_append_right _ List.mem_cons_self))

/-- How a session ends that drew a nonce: all writes succeeded and it was completed and reconnected,
or it stopped on a write. -/
theorem libhothDfuUpdate_ends {completeFlags : UInt32} {err : LibhothError} {history : DfuHistory}
    (hrun : Runs recording (libhothDfuUpdate image completeFlags) [] err history)
    (hnonce : ⟨.getRandom, none⟩ ∉ history) :
    ∃ nonce, ⟨.getRandom, some nonce⟩ ∈ history ∧
      ((∃ past completed, Sending image ⟨nonce, hothDfuTargetEarlgreyFwUpdate⟩ image.length past ∧
          (∀ exchange ∈ past, ¬FailsWrite exchange) ∧
          history = past ++ [⟨.host (dfuCompleteCall ⟨nonce, hothDfuTargetEarlgreyFwUpdate⟩
            completeFlags), completed⟩] ++ [⟨.reconnect, err⟩]) ∨
        StoppedOnWrite image ⟨nonce, hothDfuTargetEarlgreyFwUpdate⟩ err history) := by
  obtain ⟨drawn, _, hdraw, hsession⟩ := (runs_bind _ _ _ _ _).mp hrun
  rw [runs_request, recording_iff] at hdraw
  subst hdraw
  obtain ⟨rest, rfl⟩ := hsession.recording_prefix
  cases drawn with
  | none => exact absurd (by simp) hnonce
  | some nonce =>
    refine ⟨nonce, by simp, ?_⟩
    obtain ⟨written, past, hwrite, hend⟩ := (runs_bind _ _ _ _ _).mp hsession
    rcases dfuWrite_ensures (.start nonce) (by simp [FailsWrite]) _ _ hwrite with
      ⟨rfl, hsending, haccepted⟩ | hstopped
    · obtain ⟨completed, _, hcomplete, hreconnect⟩ := (runs_bind _ _ _ _ _).mp hend
      rw [dfuHost, runs_request, recording_iff] at hcomplete
      subst hcomplete
      rw [runs_request, recording_iff] at hreconnect
      exact .inl ⟨past, completed, hsending, haccepted, hreconnect⟩
    · rw [if_pos hstopped.error, pure_eq_done, runs_done] at hend
      obtain ⟨rfl, hfinal⟩ := hend
      rw [hfinal]
      exact .inr hstopped

end Session

/-- Every run of `libhoth_dfu_update` that drew a nonce meets the contract of a session under that
nonce: for every image, all flags and every device. -/
theorem libhothDfuUpdate_session (image : List UInt8) (completeFlags : UInt32)
    (err : LibhothError) (history : DfuHistory)
    (hrun : Runs recording (libhothDfuUpdate image completeFlags) [] err history)
    (hnonce : ⟨.getRandom, none⟩ ∉ history) :
    ∃ nonce, ⟨.getRandom, some nonce⟩ ∈ history ∧
      SessionContract image completeFlags ⟨nonce, hothDfuTargetEarlgreyFwUpdate⟩ err history := by
  obtain ⟨nonce, hdrawn, hends⟩ := libhothDfuUpdate_ends hrun hnonce
  refine ⟨nonce, hdrawn, ?_⟩
  rcases hends with ⟨past, completed, hsending, haccepted, rfl⟩ | hstopped
  · exact .of_sent hsending haccepted completed err
  · exact .of_stopped hstopped

/-- A device that accepts every command, draws a fixed nonce and always comes back. -/
def agreeableAnswer : (call : DfuCall) → DfuReply call
  | .host call => acceptingReply call
  | .getRandom => some ⟨1, 2⟩
  | .reconnect => hothSuccess

/-- A session that sends 2500 bytes to that device in three chunks and succeeds. -/
theorem libhothDfuUpdate_session_chunks :
    ∃ history, Runs recording (libhothDfuUpdate (List.replicate 2500 7) 1) [] hothSuccess history ∧
      sentData (sentRequests hothCmdDfuWrite history) = List.replicate 2500 7 ∧
      ∃ nonce, ⟨.getRandom, some nonce⟩ ∈ history ∧
        SessionContract (List.replicate 2500 7) 1 ⟨nonce, hothDfuTargetEarlgreyFwUpdate⟩
          hothSuccess history := by
  obtain ⟨err, history, hrun⟩ :=
    exists_runs_recordingAnswers agreeableAnswer (libhothDfuUpdate (List.replicate 2500 7) 1) []
  have hanswer := hrun.eq_answer fun _ hpast ↦ absurd hpast List.not_mem_nil
  have hnonce : ⟨.getRandom, none⟩ ∉ history := fun hmem ↦
    absurd (hanswer _ hmem).symm (Option.some_ne_none _)
  obtain ⟨nonce, -, hends⟩ := libhothDfuUpdate_ends hrun.recording_of_answers hnonce
  rcases hends with ⟨past, completed, hsending, -, rfl⟩ | hstopped
  · obtain rfl : err = hothSuccess := hanswer ⟨.reconnect, err⟩ (by simp)
    refine ⟨_, hrun.recording_of_answers, ?_,
      libhothDfuUpdate_session _ _ hothSuccess _ hrun.recording_of_answers hnonce⟩
    rw [sentRequests_write_completed, hsending.sent, List.take_length]
  · obtain ⟨earlier, call, nonzero, rfl, -, -⟩ := hstopped.last
    have hreply : HostReply.failed err nonzero = acceptingReply call :=
      hanswer ⟨.host call, .failed err nonzero⟩ (by simp)
    exact absurd hreply (by simp [acceptingReply])

end Libhoth.Protocol.DfuSession
