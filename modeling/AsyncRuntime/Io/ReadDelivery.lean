import AsyncRuntime.Io.SessionReads

/-!
# Whether what is reported as read can be read

A `tcp_session` appends what arrives to its stream buffer, so nothing is lost as
long as its operations do not overlap, and a read has as many bytes as it waits
for; without a timeout that is one byte, whatever the caller has asked for.  A
read that has timed out leaves its operation to the socket, and the next read
overlaps with it.  A `udp_session` never commits what it has received.
-/

namespace AsyncRuntime.Io.Reads

open AsyncRuntime.Foundation
open AsyncRuntime.Io.Tcp (Call ErrorCode Operation Session)

/-- How many bytes a caller has asked for. -/
def requested : Call → ℕ
  | .readSize size => size
  | .read => 0
  | .write _ => 0

/-- What has been returned and what can be read are the received bytes. -/
def State.InOrder (state : State) : Prop :=
  state.returned ++ state.buffer.input = state.received

/-- The bytes are in order, and every read has made readable what was asked for. -/
def State.TcpDelivers (state : State) : Prop :=
  state.InOrder ∧
    ∀ report ∈ state.reports, report.before + requested report.call ≤ report.published

/-- The bytes are in order, and every read has made readable what it reports. -/
def State.UdpDelivers (state : State) : Prop :=
  state.InOrder ∧
    ∀ report ∈ state.reports, report.published = report.before + report.transferred

/--
A read without a timeout asks for one byte at most, and no read is started while
another one is with the socket.
-/
def TcpOrderly (state : State) : TcpAction → Prop
  | .begin (.readSize size) => 0 < state.session.readTimeout ∨ size ≤ 1
  | .session (.launch index false) =>
      state.operationHas index (fun operation => isRead operation.call) = true →
        state.session.operations.countP reading = 0
  | _ => True

/-- Every datagram is empty. -/
def UdpOrderly (_ : State) : UdpAction → Prop
  | .receive _ bytes => bytes = []
  | _ => True

instance (state : State) : Decidable state.TcpDelivers :=
  inferInstanceAs (Decidable (_ = _ ∧ _))

instance (state : State) : Decidable state.UdpDelivers :=
  inferInstanceAs (Decidable (_ = _ ∧ _))

instance (state : State) (action : TcpAction) : Decidable (TcpOrderly state action) := by
  unfold TcpOrderly
  split <;> infer_instance

instance (state : State) (action : UdpAction) : Decidable (UdpOrderly state action) := by
  unfold UdpOrderly
  split <;> infer_instance

/-! ## What a step of the session does to its operations -/

/-- An operation that is the same one later. -/
structure Alike (before after : Operation) : Prop where
  call : after.call = before.call
  atLeast : after.atLeast = before.atLeast
  reads : reading after = true → reading before = true

section

variable {session target : Session} {state source final : State}

theorem Alike.refl (operation : Operation) : Alike operation operation :=
  ⟨rfl, rfl, id⟩

theorem alike_resolve (operation : Operation) (outcome : Tcp.Outcome) :
    Alike operation (operation.resolve outcome) := by
  unfold Operation.resolve
  split
  · exact .refl operation
  · exact ⟨rfl, rfl, id⟩

theorem alike_handler (operation : Operation) (code : ErrorCode) (transferred : ℕ) :
    Alike operation (operation.handler code transferred) := by
  unfold Operation.handler
  split <;> exact alike_resolve operation _

theorem alike_cancel (operation : Operation) : Alike operation operation.cancel := by
  unfold Operation.cancel
  split <;> exact alike_resolve operation _

theorem alike_handlerDeadline (operation : Operation) (expiry now : ℤ) :
    Alike operation (operation.handlerDeadline expiry now) := by
  unfold Operation.handlerDeadline
  split
  · split <;> exact alike_resolve operation _
  · exact .refl operation

/-- An operation that has ended does not read. -/
theorem Alike.ended {before after : Operation} (alike : Alike before after) :
    Alike before { after with stage := .ended } :=
  ⟨alike.call, alike.atLeast, fun impossible => by simp [reading] at impossible⟩

/-- The operations of a session after a step that begins none. -/
structure Follows (before after : Session) : Prop where
  length : after.operations.length = before.operations.length
  same : ∀ operation ∈ after.operations, ∃ old ∈ before.operations,
    operation.call = old.call ∧ operation.atLeast = old.atLeast
  single : before.operations.countP reading ≤ 1 → after.operations.countP reading ≤ 1

theorem follows_of_operations (same : target.operations = session.operations) :
    Follows session target := by
  refine ⟨by rw [same], ?_, by rw [same]; exact id⟩
  rw [same]
  exact fun operation member => ⟨operation, member, rfl, rfl⟩

theorem countP_modify {items : List Operation} {index : ℕ}
    {change : Operation → Operation} {operation : Operation}
    (found : items[index]? = some operation) :
    (items.modify index change).countP reading + (reading operation).toNat =
      items.countP reading + (reading (change operation)).toNat := by
  induction items generalizing index with
  | nil => cases found
  | cons first rest inductionHypothesis =>
      cases index with
      | zero =>
          obtain rfl : first = operation := Option.some.inj found
          simp only [List.modify_zero_cons, List.countP_cons]
          cases reading first <;> cases reading (change first) <;> simp
      | succ index =>
          have remaining := inductionHypothesis found
          simp only [List.modify_succ_cons, List.countP_cons]
          omega

theorem countP_modify_le {items : List Operation} {index : ℕ}
    {change : Operation → Operation}
    (alike : ∀ operation ∈ items[index]?, Alike operation (change operation)) :
    (items.modify index change).countP reading ≤ items.countP reading := by
  cases found : items[index]? with
  | none => rw [List.modify_eq_self (List.getElem?_eq_none_iff.mp found)]
  | some operation =>
      have counted := @countP_modify items index change operation found
      cases now : reading (change operation) with
      | false =>
          rw [now] at counted
          exact le_trans (Nat.le_add_right _ _) counted.le
      | true =>
          rw [now, (alike operation found).reads now] at counted
          exact (Nat.add_right_cancel counted).le

theorem mem_modify {items : List Operation} {index : ℕ} {change : Operation → Operation}
    {operation : Operation} (member : operation ∈ items.modify index change) :
    operation ∈ items ∨ ∃ old ∈ items[index]?, operation = change old := by
  obtain ⟨place, found⟩ := List.getElem?_of_mem member
  rw [List.getElem?_modify] at found
  obtain ⟨old, present, same⟩ := Option.map_eq_some_iff.mp found
  split at same
  · rename_i here
    subst here
    exact .inr ⟨old, present, same.symm⟩
  · subst same
    exact .inl (List.mem_of_getElem? present)

theorem follows_modify {index : ℕ} {change : Operation → Operation}
    (modified : target.operations = session.operations.modify index change)
    (alike : ∀ operation ∈ session.operations[index]?, Alike operation (change operation)) :
    Follows session target := by
  refine ⟨by rw [modified, List.length_modify], ?_, fun single => ?_⟩
  · intro operation member
    rw [modified] at member
    rcases mem_modify member with old | ⟨old, present, rfl⟩
    · exact ⟨operation, old, rfl, rfl⟩
    · exact ⟨old, List.mem_of_getElem? present, (alike old present).call,
        (alike old present).atLeast⟩
  · rw [modified]
    exact (countP_modify_le alike).trans single

/-- An operation is given to the socket while no read is with it. -/
theorem follows_launch {index : ℕ} {operation : Operation}
    (found : session.operations[index]? = some operation)
    (alone : session.operations.countP reading = 0) :
    Follows session
      (session.update index fun operation => { operation with stage := .running }) := by
  refine ⟨List.length_modify .., ?_, fun _ => ?_⟩
  · intro operation member
    rcases mem_modify member with old | ⟨old, present, rfl⟩
    · exact ⟨operation, old, rfl, rfl⟩
    · exact ⟨old, List.mem_of_getElem? present, rfl, rfl⟩
  · have counted := @countP_modify session.operations index
      (fun operation => { operation with stage := .running }) operation found
    have atMost := Bool.toNat_le (reading { operation with stage := .running })
    change (session.operations.modify index _).countP reading ≤ 1
    omega

/-- There is an operation at the index, and it has the property. -/
theorem operationHas_iff {index : ℕ} {property : Operation → Bool} :
    state.operationHas index property = true ↔
      ∃ operation, state.session.operations[index]? = some operation ∧
        property operation = true := by
  rw [State.operationHas, Option.any_eq_true]

/-- What is reported when an operation completes: its call, without an error. -/
theorem mem_report {index transferred : ℕ} {code : ErrorCode} {report : Report}
    (member : report ∈ state.report index code transferred) :
    code = .success ∧ ∃ operation, state.session.operations[index]? = some operation ∧
      report = ⟨operation.call, transferred, state.begun index, state.published⟩ := by
  unfold State.report at member
  split at member
  · cases member
  · rename_i operation found
    split at member
    · rename_i resolves
      exact ⟨resolves.2.2, operation, found, List.mem_singleton.mp member⟩
    · cases member

/-- A completion without an error has transferred enough. -/
theorem atLeast_le_of_complete {index transferred : ℕ} {operation : Operation}
    (found : session.operations[index]? = some operation)
    (taken : Tcp.next session (.complete index .success transferred) = some target) :
    operation.atLeast ≤ transferred := by
  simp only [Tcp.next, Option.ite_none_right_eq_some] at taken
  have completes : operation.stage = .running ∧ operation.atLeast ≤ transferred := by
    simpa [Session.completes, found] using taken.1
  exact completes.2

theorem follows_complete {index transferred : ℕ} {code : ErrorCode}
    (taken : Tcp.next session (.complete index code transferred) = some target) :
    Follows session target := by
  simp only [Tcp.next, Option.ite_none_right_eq_some, Option.some.injEq] at taken
  rw [← taken.2]
  exact follows_modify rfl fun operation _ => (alike_handler operation code transferred).ended

/-! ## `tcp_session` -/

/-- The steps of an orderly run, apart from the completions of reads. -/
theorem follows_of_allows {action : Tcp.Action} (allowed : state.allows action = true)
    (orderly : TcpOrderly state (.session action))
    (taken : Tcp.next state.session action = some target) :
    Follows state.session target := by
  cases action with
  | begin call => cases allowed
  | complete index code transferred => exact follows_complete taken
  | launch index thrown =>
      simp only [Tcp.next, Option.ite_none_right_eq_some, Option.some.injEq] at taken
      rw [← taken.2]
      cases thrown with
      | true => exact follows_modify rfl fun operation _ => (alike_cancel operation).ended
      | false =>
          by_cases read :
              state.operationHas index (fun operation => isRead operation.call) = true
          · obtain ⟨operation, found, -⟩ := operationHas_iff.mp read
            exact follows_launch found (orderly read)
          · refine follows_modify rfl fun operation found => ⟨rfl, rfl, fun reads => ?_⟩
            rw [State.operationHas, Option.mem_def.mp found, Option.any_some] at read
            rw [reading, Bool.and_eq_true] at reads
            exact absurd reads.1 read
  | handleDeadline index =>
      simp only [Tcp.next, Option.ite_none_right_eq_some, Option.some.injEq] at taken
      rw [← taken.2]
      exact follows_modify rfl fun operation _ => alike_handlerDeadline operation _ _
  | setReadTimeout amount =>
      cases taken
      exact follows_of_operations rfl
  | close =>
      cases taken
      exact follows_of_operations rfl
  | advance amount =>
      cases taken
      exact follows_of_operations rfl
  | expire =>
      simp only [Tcp.next, Option.ite_none_right_eq_some, Option.some.injEq] at taken
      rw [← taken.2]
      exact follows_of_operations rfl

/--
What holds in an orderly run: the bytes are in order, and what an operation has
transferred has become readable since its call.
-/
structure TcpSound (state : State) : Prop where
  inOrder : state.InOrder
  requested : ∀ operation ∈ state.session.operations,
    requested operation.call ≤ operation.atLeast
  single : state.session.operations.countP reading ≤ 1
  untouched : ∀ index, state.session.operations.length ≤ index → state.transferred index = 0
  counted : ∀ index < state.session.operations.length,
    state.begun index + state.transferred index ≤ state.published
  reported : ∀ report ∈ state.reports,
    report.before + Reads.requested report.call ≤ report.published

theorem TcpSound.follow (sound : TcpSound state) {session : Session}
    (follows : Follows state.session session) :
    TcpSound { state with session := session } where
  inOrder := sound.inOrder
  requested := by
    intro operation member
    obtain ⟨old, present, call, atLeast⟩ := follows.same operation member
    rw [call, atLeast]
    exact sound.requested old present
  single := follows.single sound.single
  untouched := by
    intro index beyond
    exact sound.untouched index (follows.length ▸ beyond)
  counted := by
    intro index inside
    exact sound.counted index (follows.length ▸ inside)
  reported := sound.reported

theorem TcpSound.begin (sound : TcpSound state) {call : Call} {knowsTimer : Bool}
    {deadline : Option ℤ} {atLeast : ℕ} {session : Session}
    (enough : Reads.requested call ≤ atLeast)
    (begun : session.operations = state.session.operations ++
      [⟨call, knowsTimer, deadline, atLeast, .posted, false, []⟩]) :
    TcpSound (state.begin session) where
  inOrder := sound.inOrder
  requested := by
    intro operation member
    rw [State.begin, begun] at member
    rcases List.mem_append.mp member with old | new
    · exact sound.requested operation old
    · rw [List.mem_singleton.mp new]
      exact enough
  single := by
    rw [State.begin, begun, List.countP_append]
    simpa [reading] using sound.single
  untouched := by
    intro index beyond
    simp only [State.begin, begun, List.length_append] at beyond
    exact sound.untouched index (Nat.le_of_add_right_le beyond)
  counted := by
    intro index inside
    simp only [State.begin, begun, List.length_append, List.length_singleton] at inside
    simp only [State.begin]
    by_cases last : index = state.session.operations.length
    · rw [last, Function.update_self, sound.untouched _ (Nat.le_refl _)]
      exact Nat.le_refl _
    · rw [Function.update_of_ne last]
      exact sound.counted index (by omega)
  reported := sound.reported

theorem published_receive (index room : ℕ) (bytes : List Byte) :
    (state.receive index room bytes).published = state.published + bytes.length := by
  have input := Streambuf.input_commit_fill state.buffer room bytes
  simp only [State.published, State.receive, input, List.length_append]
  omega

theorem TcpSound.receive (sound : TcpSound state) {index room : ℕ} {bytes : List Byte}
    (inside : index < state.session.operations.length) :
    TcpSound (state.receive index room bytes) := by
  have input := Streambuf.input_commit_fill state.buffer room bytes
  refine ⟨?_, sound.requested, sound.single, ?_, ?_, sound.reported⟩
  · rw [State.InOrder, State.receive]
    simp only [input]
    rw [← List.append_assoc, sound.inOrder]
  · intro place beyond
    have different : place ≠ index := by
      rintro rfl
      exact absurd inside (Nat.not_lt.mpr beyond)
    simp only [State.receive, Function.update_of_ne different]
    exact sound.untouched place beyond
  · intro place inside
    rw [published_receive]
    have before := sound.counted place inside
    simp only [State.receive]
    by_cases same : place = index
    · subst same
      rw [Function.update_self]
      omega
    · rw [Function.update_of_ne same]
      omega

theorem TcpSound.complete (sound : TcpSound state) {index : ℕ} {code : ErrorCode}
    (taken : state.complete index code (state.transferred index) = some final) :
    TcpSound final := by
  obtain ⟨session, moved, rfl⟩ := Option.map_eq_some_iff.mp taken
  have after := sound.follow (follows_complete moved)
  refine ⟨after.inOrder, after.requested, after.single, after.untouched, after.counted, ?_⟩
  intro report member
  rcases List.mem_append.mp member with new | old
  · obtain ⟨rfl, operation, found, rfl⟩ := mem_report new
    obtain ⟨inside, -⟩ := List.getElem?_eq_some_iff.mp found
    have enough := sound.requested operation (List.mem_of_getElem? found)
    have atLeast := atLeast_le_of_complete found moved
    have counted := sound.counted index inside
    simp only
    omega
  · exact sound.reported report old

theorem TcpSound.readInputStream (sound : TcpSound state) (size : ℕ) :
    TcpSound (state.readInputStream size) := by
  have published : (state.readInputStream size).published = state.published := by
    simp only [State.published, State.readInputStream, Streambuf.consume, List.length_append,
      List.length_take, List.length_drop]
    omega
  refine ⟨?_, sound.requested, sound.single, sound.untouched, ?_, sound.reported⟩
  · rw [State.InOrder, State.readInputStream]
    simp only [Streambuf.consume]
    rw [List.append_assoc, List.take_append_drop, sound.inOrder]
  · intro index inside
    rw [published]
    exact sound.counted index inside

/-- How many bytes the operation of a call waits for. -/
def waitsFor (session : Session) : Call → ℕ
  | .read => 1
  | .readSize size => if 0 < session.readTimeout then size else 1
  | .write size => size

theorem begin_operations (session : Session) (call : Call) :
    ∃ knowsTimer deadline, (session.begin call).operations =
      session.operations ++
        [⟨call, knowsTimer, deadline, waitsFor session call, .posted, false, []⟩] := by
  cases call with
  | read =>
      simp only [Session.begin, Session.asyncRead]
      split <;> exact ⟨_, _, rfl⟩
  | readSize size =>
      simp only [Session.begin, Session.asyncReadSize, waitsFor]
      split <;> exact ⟨_, _, rfl⟩
  | write size =>
      simp only [Session.begin, Session.asyncWrite]
      split <;> exact ⟨_, _, rfl⟩

theorem requested_le_waitsFor {call : Call} (orderly : TcpOrderly state (.begin call)) :
    requested call ≤ waitsFor state.session call := by
  cases call with
  | read => exact Nat.zero_le _
  | readSize size =>
      have allowed : 0 < state.session.readTimeout ∨ size ≤ 1 := orderly
      simp only [requested, waitsFor]
      split <;> omega
  | write size => exact Nat.zero_le _

theorem TcpSound.step {action : TcpAction} (sound : TcpSound source)
    (orderly : TcpOrderly source action) (taken : tcpNext source action = some final) :
    TcpSound final := by
  cases action with
  | begin call =>
      simp only [tcpNext, Option.ite_none_right_eq_some, Option.some.injEq] at taken
      rw [← taken.2]
      obtain ⟨knowsTimer, deadline, begun⟩ := begin_operations source.session call
      exact sound.begin (requested_le_waitsFor orderly) begun
  | session action =>
      simp only [tcpNext, Option.ite_none_right_eq_some] at taken
      obtain ⟨session, moved, rfl⟩ := Option.map_eq_some_iff.mp taken.2
      exact sound.follow (follows_of_allows taken.1 orderly moved)
  | receive index room bytes =>
      simp only [tcpNext, Option.ite_none_right_eq_some, Option.some.injEq] at taken
      obtain ⟨⟨place, -⟩, rfl⟩ := taken
      obtain ⟨operation, found, -⟩ := operationHas_iff.mp place
      obtain ⟨inside, -⟩ := List.getElem?_eq_some_iff.mp found
      exact sound.receive inside
  | complete index code =>
      simp only [tcpNext, Option.ite_none_right_eq_some] at taken
      exact sound.complete taken.2
  | readInputStream size =>
      cases taken
      exact sound.readInputStream size
  | clobber content =>
      simp only [tcpNext, Option.ite_none_right_eq_some] at taken
      have several : 2 ≤ source.session.operations.countP reading :=
        of_decide_eq_true taken.1
      exact absurd (several.trans sound.single) (by decide)

theorem tcpSound_of_reachable (reachable : tcpSystem.ReachableUnder TcpOrderly state) :
    TcpSound state := by
  refine reachable.invariant ?_ ?_
  · rintro start ⟨⟨-, -, -, operations⟩, buffer, received, returned, transferred, reports⟩
    refine ⟨?_, ?_, ?_, fun index _ => transferred index, ?_, ?_⟩
    · rw [State.InOrder, returned, buffer, received]
      rfl
    · simp [operations]
    · simp [operations]
    · simp [operations]
    · simp [reports]
  · intro source action target _ orderly taken sound
    exact sound.step orderly taken

theorem TcpSound.delivers (sound : TcpSound state) : state.TcpDelivers :=
  ⟨sound.inOrder, sound.reported⟩

/-! ## Where an orderly run ends -/

/-- The run can go on to a state in which bytes are missing. -/
inductive LeadsToLoss : State → Prop where
  | lost {state : State} (missing : ¬ state.TcpDelivers) : LeadsToLoss state
  | step {state target : State} {action : TcpAction}
      (taken : tcpNext state action = some target) (later : LeadsToLoss target) :
      LeadsToLoss state

/-- A read that waits for one byte only is resolved when it has come. -/
theorem leadsToLoss_of_short {index : ℕ} {operation : Operation}
    (found : state.session.operations[index]? = some operation)
    (read : isRead operation.call = true) (posted : operation.stage = .posted)
    (unresolved : operation.resolved = false) (short : operation.atLeast = 1)
    (more : 2 ≤ requested operation.call) (untouched : state.transferred index = 0)
    (begun : state.begun index = state.published) : LeadsToLoss state := by
  let launched : State :=
    { state with
      session := state.session.update index fun operation =>
        { operation with stage := .running } }
  have running : launched.session.operations[index]? =
      some { operation with stage := .running } := by
    simp [launched, Session.update, found]
  have launch : tcpNext state (.session (.launch index false)) = some launched := by
    simp [tcpNext, State.allows, State.sessionStep, Tcp.next, Session.posted, found, posted,
      launched]
  have receive : tcpNext launched (.receive index 1 [0]) =
      some (launched.receive index 1 [0]) := by
    simp [tcpNext, State.operationHas, running, reading, read, short, launched, untouched]
  have transferred : (launched.receive index 1 [0]).transferred index = 1 := by
    simp [State.receive, launched, untouched]
  have arrived : (launched.receive index 1 [0]).session.operations[index]? =
      some { operation with stage := .running } := running
  have published : (launched.receive index 1 [0]).published = state.published + 1 :=
    published_receive index 1 [0]
  have reported : (launched.receive index 1 [0]).report index .success 1 =
      [⟨operation.call, 1, state.published, state.published + 1⟩] := by
    simp only [State.report, arrived, read, unresolved, and_self, if_true, published]
    exact congrArg (fun before => [Report.mk operation.call 1 before _]) begun
  obtain ⟨session, complete⟩ : ∃ session,
      Tcp.next (launched.receive index 1 [0]).session (.complete index .success 1) =
        some session := by
    simp [Tcp.next, Session.completes, arrived, short]
  have done : tcpNext (launched.receive index 1 [0]) (.complete index .success) =
      some { launched.receive index 1 [0] with
        session := session
        reports := [⟨operation.call, 1, state.published, state.published + 1⟩] ++
          state.reports } := by
    simp only [tcpNext, State.operationHas, arrived, Option.any_some, reading, read,
      transferred, State.complete, complete, reported, Option.map_some]
    rfl
  refine .step launch (.step receive (.step done (.lost fun delivers => ?_)))
  have enough := delivers.2 _ (List.mem_append_left _ (List.mem_singleton_self _))
  simp only at enough
  omega

/-- While two reads overlap, nothing is known of what can be read. -/
theorem leadsToLoss_of_overlap (overlapping : 2 ≤ state.session.operations.countP reading) :
    LeadsToLoss state := by
  have clobbered : tcpNext state (.clobber (0 :: state.received)) =
      some { state with buffer := { state.buffer with input := 0 :: state.received } } := by
    simp [tcpNext, State.overlapping, overlapping]
  refine .step clobbered (.lost fun delivers => ?_)
  have lengths := congrArg List.length delivers.1
  simp only [List.length_append, List.length_cons] at lengths
  omega

/-- A step that is not orderly can be followed by a loss. -/
theorem TcpSound.leadsToLoss {action : TcpAction} (sound : TcpSound source)
    (disorderly : ¬ TcpOrderly source action)
    (taken : tcpNext source action = some final) : LeadsToLoss final := by
  unfold TcpOrderly at disorderly
  split at disorderly
  · rename_i size
    obtain ⟨untimed, more⟩ := not_or.mp disorderly
    simp only [tcpNext, Option.ite_none_right_eq_some, Option.some.injEq] at taken
    rw [← taken.2]
    obtain ⟨knowsTimer, deadline, begun⟩ :=
      begin_operations source.session (.readSize size)
    rw [waitsFor, if_neg untimed] at begun
    refine @leadsToLoss_of_short _ source.session.operations.length _
      (by rw [State.begin, begun]; exact List.getElem?_concat_length) rfl rfl rfl rfl
      (by simp only [Reads.requested]; omega) (sound.untouched _ (Nat.le_refl _)) ?_
    simp only [State.begin, Function.update_self]
    rfl
  · rename_i index
    obtain ⟨read, several⟩ := Classical.not_imp.mp disorderly
    obtain ⟨operation, found, isRead⟩ := operationHas_iff.mp read
    simp only [tcpNext, Option.ite_none_right_eq_some] at taken
    obtain ⟨session, moved, rfl⟩ := Option.map_eq_some_iff.mp taken.2
    simp only [Tcp.next, Option.ite_none_right_eq_some, Option.some.injEq] at moved
    obtain ⟨posted, rfl⟩ := moved
    have stage : operation.stage = .posted := by
      simpa [Session.posted, found] using posted
    have counted := @countP_modify source.session.operations index
      (fun operation => { operation with stage := .running }) operation found
    have before : reading operation = false := by simp [reading, stage]
    have after : reading { operation with stage := .running } = true := by
      simp [reading, isRead]
    rw [before, after] at counted
    refine leadsToLoss_of_overlap ?_
    change 2 ≤ (source.session.operations.modify index _).countP reading
    simp only [Bool.toNat_false, Bool.toNat_true, add_zero] at counted
    exact counted.symm ▸ Nat.succ_le_succ (Nat.pos_of_ne_zero several)
  · exact absurd trivial disorderly

/-! ## `udp_session` -/

/-- Nothing becomes readable, whatever is received. -/
structure UdpSound (state : State) : Prop where
  unread : state.buffer.input = []
  returned : state.returned = []
  begun : ∀ index < state.session.operations.length, state.begun index = 0
  reported : ∀ report ∈ state.reports,
    report.before = 0 ∧ report.published = 0 ∧ report.transferred ≤ state.received.length

theorem UdpSound.published (sound : UdpSound state) : state.published = 0 := by
  rw [State.published, sound.unread, sound.returned]
  rfl

theorem length_startReceive (session : Session) :
    (startReceive session).operations.length = session.operations.length + 1 := by
  unfold startReceive
  split <;> simp [Session.update, Session.post, Session.postWithTimeout, Session.asyncWait,
    Session.expiresFromNow, Session.cancelWaits]

/-- A step of the session begins no operation. -/
theorem length_of_next {action : Tcp.Action} (begins : ∀ call, action ≠ .begin call)
    (taken : Tcp.next session action = some target) :
    target.operations.length = session.operations.length := by
  cases action with
  | begin call => exact absurd rfl (begins call)
  | complete index code transferred => exact (follows_complete taken).length
  | launch index thrown =>
      simp only [Tcp.next, Option.ite_none_right_eq_some, Option.some.injEq] at taken
      rw [← taken.2, Session.update, List.length_modify]
  | handleDeadline index =>
      simp only [Tcp.next, Option.ite_none_right_eq_some, Option.some.injEq] at taken
      rw [← taken.2, Session.update, List.length_modify]
  | setReadTimeout amount =>
      cases taken
      rfl
  | close =>
      cases taken
      rfl
  | advance amount =>
      cases taken
      rfl
  | expire =>
      simp only [Tcp.next, Option.ite_none_right_eq_some, Option.some.injEq] at taken
      rw [← taken.2]
      rfl

theorem UdpSound.sessionStep {action : Tcp.Action} (sound : UdpSound source)
    (begins : ∀ call, action ≠ .begin call)
    (taken : source.sessionStep action = some final) : UdpSound final := by
  obtain ⟨session, moved, rfl⟩ := Option.map_eq_some_iff.mp taken
  have length := length_of_next begins moved
  exact ⟨sound.unread, sound.returned, fun index inside => sound.begun index (length ▸ inside),
    sound.reported⟩

theorem UdpSound.asyncRead (sound : UdpSound state) : UdpSound state.asyncRead := by
  refine ⟨sound.unread, sound.returned, ?_, sound.reported⟩
  intro index inside
  simp only [State.asyncRead, State.begin, length_startReceive] at inside ⊢
  by_cases last : index = state.session.operations.length
  · rw [last, Function.update_self, sound.published]
  · rw [Function.update_of_ne last]
    exact sound.begun index (by omega)

theorem UdpSound.complete {index transferred : ℕ} {code : ErrorCode}
    (sound : UdpSound source)
    (counted : code = .success → transferred ≤ source.received.length)
    (taken : source.complete index code transferred = some final) : UdpSound final := by
  obtain ⟨session, moved, rfl⟩ := Option.map_eq_some_iff.mp taken
  have length := (follows_complete moved).length
  refine ⟨sound.unread, sound.returned, fun index inside => sound.begun index (length ▸ inside),
    ?_⟩
  intro report member
  rcases List.mem_append.mp member with new | old
  · obtain ⟨succeeded, operation, found, rfl⟩ := mem_report new
    obtain ⟨inside, -⟩ := List.getElem?_eq_some_iff.mp found
    exact ⟨sound.begun index inside, sound.published, counted succeeded⟩
  · exact sound.reported report old

theorem UdpSound.receiveFrom {index : ℕ} {bytes : List Byte} (sound : UdpSound source)
    (taken : source.receiveFrom index bytes = some final) : UdpSound final := by
  simp only [State.receiveFrom, Option.ite_none_right_eq_some] at taken
  have filled : UdpSound
      { source with
        buffer := source.buffer.fill bytes
        received := source.received ++ bytes } := by
    refine ⟨sound.unread, sound.returned, sound.begun, fun report member => ?_⟩
    obtain ⟨before, published, transferred⟩ := sound.reported report member
    rw [List.length_append]
    exact ⟨before, published, Nat.le_add_right_of_le transferred⟩
  refine filled.complete (fun _ => ?_) taken.2
  rw [List.length_append]
  exact Nat.le_add_left _ _

theorem UdpSound.readInputStream (sound : UdpSound state) (size : ℕ) :
    UdpSound (state.readInputStream size) := by
  refine ⟨?_, ?_, sound.begun, sound.reported⟩
  · simp [State.readInputStream, Streambuf.consume, sound.unread]
  · simp [State.readInputStream, sound.unread, sound.returned]

theorem UdpSound.step {action : UdpAction} (sound : UdpSound source)
    (taken : udpNext source action = some final) : UdpSound final := by
  cases action with
  | asyncRead =>
      simp only [udpNext, Option.ite_none_right_eq_some, Option.some.injEq] at taken
      rw [← taken.2]
      exact sound.asyncRead
  | setReadTimeout amount => exact sound.sessionStep (fun _ => Tcp.Action.noConfusion) taken
  | close => exact sound.sessionStep (fun _ => Tcp.Action.noConfusion) taken
  | advance amount => exact sound.sessionStep (fun _ => Tcp.Action.noConfusion) taken
  | expire => exact sound.sessionStep (fun _ => Tcp.Action.noConfusion) taken
  | handleDeadline index => exact sound.sessionStep (fun _ => Tcp.Action.noConfusion) taken
  | receive index bytes => exact sound.receiveFrom taken
  | fail index code =>
      simp only [udpNext] at taken
      split at taken
      · cases taken
      · rename_i failed
        exact sound.complete (fun success => absurd success failed) taken
  | readInputStream size =>
      cases taken
      exact sound.readInputStream size

theorem udpSound_of_reachable {permitted : State → UdpAction → Prop}
    (reachable : udpSystem.ReachableUnder permitted state) : UdpSound state := by
  refine reachable.invariant ?_ ?_
  · rintro start ⟨⟨-, -, -, operations⟩, buffer, received, returned, transferred, reports⟩
    refine ⟨by rw [buffer], returned, ?_, ?_⟩
    · simp [operations]
    · simp [reports]
  · intro source action target _ _ taken sound
    exact sound.step taken

/-- A session delivers exactly what has no bytes. -/
theorem UdpSound.delivers_iff (sound : UdpSound state) :
    state.UdpDelivers ↔ state.received = [] := by
  constructor
  · rintro ⟨inOrder, -⟩
    rw [State.InOrder, sound.unread, sound.returned] at inOrder
    exact inOrder.symm
  · intro none
    refine ⟨by rw [State.InOrder, sound.unread, sound.returned, none]; rfl, ?_⟩
    intro report member
    obtain ⟨before, published, transferred⟩ := sound.reported report member
    rw [none] at transferred
    rw [before, published, Nat.le_zero.mp transferred]

/-- The bytes that a step of a `udp_session` receives. -/
def UdpAction.datagram : UdpAction → List Byte
  | .receive _ bytes => bytes
  | _ => []

theorem datagram_of_orderly {action : UdpAction} :
    UdpOrderly state action ↔ action.datagram = [] := by
  cases action <;> simp [UdpOrderly, UdpAction.datagram]

theorem received_udpNext {action : UdpAction} (taken : udpNext source action = some final) :
    final.received = source.received ++ action.datagram := by
  have steps {other : Tcp.Action} (moved : source.sessionStep other = some final) :
      final.received = source.received ++ [] := by
    obtain ⟨session, -, rfl⟩ := Option.map_eq_some_iff.mp moved
    exact (List.append_nil _).symm
  have completes {state : State} {index transferred : ℕ} {code : ErrorCode}
      (moved : state.complete index code transferred = some final) :
      final.received = state.received := by
    obtain ⟨session, -, rfl⟩ := Option.map_eq_some_iff.mp moved
    rfl
  cases action with
  | asyncRead =>
      simp only [udpNext, Option.ite_none_right_eq_some, Option.some.injEq] at taken
      rw [← taken.2]
      exact (List.append_nil _).symm
  | setReadTimeout amount => exact steps taken
  | close => exact steps taken
  | advance amount => exact steps taken
  | expire => exact steps taken
  | handleDeadline index => exact steps taken
  | receive index bytes =>
      simp only [udpNext, State.receiveFrom, Option.ite_none_right_eq_some] at taken
      exact completes taken.2
  | fail index code =>
      simp only [udpNext] at taken
      split at taken
      · cases taken
      · exact (completes taken).trans (List.append_nil _).symm
  | readInputStream size =>
      cases taken
      exact (List.append_nil _).symm

theorem received_of_orderly (reachable : udpSystem.ReachableUnder UdpOrderly state) :
    state.received = [] := by
  refine @TransitionSystem.ReachableUnder.invariant _ _ _ _ (fun state => state.received = [])
    ?_ ?_ _ reachable
  · intro start fresh
    exact fresh.received
  · intro source action target _ orderly taken none
    rw [received_udpNext taken, none, datagram_of_orderly.mp orderly]
    rfl

/-! ## The bytes that are reported -/

/--
An orderly run delivers what it reports, a step of a `tcp_session` that is not
orderly can be followed by a loss, and one of a `udp_session` is a loss.
-/
theorem reads_deliver (source : State) :
    (tcpSystem.ReachableUnder TcpOrderly source →
      source.TcpDelivers ∧
        ∀ action target, tcpNext source action = some target → ¬ TcpOrderly source action →
          LeadsToLoss target) ∧
      (udpSystem.ReachableUnder UdpOrderly source →
        source.UdpDelivers ∧
          ∀ action target, udpNext source action = some target → ¬ UdpOrderly source action →
            ¬ target.UdpDelivers) := by
  constructor
  · intro reachable
    have sound := tcpSound_of_reachable reachable
    refine ⟨sound.delivers, ?_⟩
    intro action target taken disorderly
    exact sound.leadsToLoss disorderly taken
  · intro reachable
    have sound := udpSound_of_reachable reachable
    refine ⟨sound.delivers_iff.mpr (received_of_orderly reachable), ?_⟩
    intro action target taken disorderly
    rw [(sound.step taken).delivers_iff, received_udpNext taken, List.append_eq_nil_iff]
    exact fun none => disorderly (datagram_of_orderly.mpr none.2)

end

/-! ## Some sessions -/

/-- A session as its constructor leaves it. -/
def newState : State where
  session := ⟨0, 0, 0, [], [], []⟩
  buffer := ⟨[], [], 0⟩
  received := []
  returned := []
  begun _ := 0
  transferred _ := 0
  reports := []

theorem fresh_newState : Fresh newState :=
  ⟨⟨rfl, rfl, rfl, rfl⟩, rfl, rfl, rfl, fun _ => rfl, rfl⟩

/-- A read with a timeout of one second, over which it passes. -/
def timedOut : List TcpAction :=
  [.session (.setReadTimeout 1), .begin .read, .session (.launch 0 false),
    .session (.advance 1000000), .session .expire, .session (.handleDeadline 0)]

/--
A read of three bytes that come in two parts, an empty datagram, the read after
one that has timed out, and a datagram of one byte.
-/
theorem reads_deliver_some :
    (∃ state : State, tcpSystem.ReachableUnder TcpOrderly state ∧
        state.returned = [1, 2, 3] ∧ state.TcpDelivers) ∧
      (∃ state : State, udpSystem.ReachableUnder UdpOrderly state ∧
        state.reports.length = 1 ∧ state.UdpDelivers) ∧
      (∃ state : State, tcpSystem.Reachable state ∧
        state.overlapping = true ∧ LeadsToLoss state) ∧
      ∃ state : State, udpSystem.Reachable state ∧
        state.received = [7] ∧ ¬ state.UdpDelivers := by
  refine ⟨?_, ?_, ?_, ?_⟩
  · obtain ⟨state, reachable, returned⟩ :=
      TransitionSystem.exists_reachableUnder_of_run tcpSystem TcpOrderly fresh_newState
        [.session (.setReadTimeout 1), .begin (.readSize 3), .session (.launch 0 false),
          .receive 0 512 [1, 2], .receive 0 512 [3, 4], .complete 0 .success,
          .readInputStream 3]
        (fun state => decide (state.returned = [1, 2, 3])) (by decide)
    exact ⟨state, reachable, of_decide_eq_true returned, ((reads_deliver state).1 reachable).1⟩
  · obtain ⟨state, reachable, reported⟩ :=
      TransitionSystem.exists_reachableUnder_of_run udpSystem UdpOrderly fresh_newState
        [.asyncRead, .receive 0 []] (fun state => decide (state.reports.length = 1))
        (by decide)
    exact ⟨state, reachable, of_decide_eq_true reported, ((reads_deliver state).2 reachable).1⟩
  · obtain ⟨source, reachable, ready⟩ :=
      TransitionSystem.exists_reachableUnder_of_run tcpSystem TcpOrderly fresh_newState
        (timedOut ++ [.begin .read])
        (fun state => ((tcpNext state (.session (.launch 1 false))).any State.overlapping) &&
          decide (¬ TcpOrderly state (.session (.launch 1 false)))) (by decide)
    obtain ⟨overlaps, disorderly⟩ := (Bool.and_eq_true _ _).mp ready
    obtain ⟨target, taken, overlapping⟩ := (Option.any_eq_true _ _).mp overlaps
    have free : tcpSystem.Reachable source := reachable.mono fun _ _ _ => trivial
    have moved : tcpSystem.next source (.session (.launch 1 false)) = some target := taken
    exact ⟨target, free.step trivial moved, overlapping,
      ((reads_deliver source).1 reachable).2 _ target taken
      (of_decide_eq_true disorderly)⟩
  · obtain ⟨source, reachable, ready⟩ :=
      TransitionSystem.exists_reachableUnder_of_run udpSystem UdpOrderly fresh_newState
        [.asyncRead]
        (fun state => (udpNext state (.receive 0 [7])).any fun target : State =>
          decide (target.received = [7])) (by decide)
    obtain ⟨target, taken, received⟩ := (Option.any_eq_true _ _).mp ready
    have free : udpSystem.Reachable source := reachable.mono fun _ _ _ => trivial
    have moved : udpSystem.next source (.receive 0 [7]) = some target := taken
    exact ⟨target, free.step trivial moved, of_decide_eq_true received,
      ((reads_deliver source).2 reachable).2 _ target taken (by simp [UdpOrderly])⟩

/--
Two bytes are asked for without a timeout and one is read; a datagram of one byte
is reported and cannot be read.
-/
theorem reads_not_delivered :
    (¬ ∀ state, tcpSystem.Reachable state → state.TcpDelivers) ∧
      ¬ ∀ state, udpSystem.Reachable state → state.UdpDelivers := by
  constructor
  · intro claim
    obtain ⟨state, reachable, missing⟩ :=
      TransitionSystem.exists_reachableUnder_of_run tcpSystem (fun _ _ => True) fresh_newState
        [.begin (.readSize 2), .session (.launch 0 false), .receive 0 512 [7],
          .complete 0 .success]
        (fun state => decide (¬ state.TcpDelivers)) (by decide)
    exact of_decide_eq_true missing (claim state reachable)
  · intro claim
    obtain ⟨state, reachable, missing⟩ :=
      TransitionSystem.exists_reachableUnder_of_run udpSystem (fun _ _ => True) fresh_newState
        [.asyncRead, .receive 0 [7]] (fun state => decide (¬ state.UdpDelivers)) (by decide)
    exact of_decide_eq_true missing (claim state reachable)

end AsyncRuntime.Io.Reads
