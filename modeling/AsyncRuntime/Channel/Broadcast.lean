import AsyncRuntime.Channel.Model

/-!
# The channel is a reliable ordered broadcast

A watcher that its user still holds has received a prefix of the messages sent
between its `Watch` and its `UnWatch`.  The rest is its queue, followed by the
message of a `Send` that is under way and has not reached it yet.

The argument rests on the map: its entries point to live objects under their own
identifiers, and live objects have different addresses.  So `Watch` always
inserts, `UnWatch` removes its own entry, and `Send` drops only watchers that
nobody else holds.
-/

namespace AsyncRuntime.Channel

open Foundation

universe u

variable {Message : Type u}

/-! ## The operations of a watcher -/

namespace Watcher

/-- The promise has its value exactly when `resolved` says so. -/
def Promised (watcher : Watcher Message) : Prop :=
  watcher.resolved = watcher.promise.satisfied

theorem promised_create (address : ObjectID) :
    (create address : Watcher Message).Promised :=
  rfl

variable {watcher : Watcher Message}

@[simp]
theorem send_id (message : Message) :
    (watcher.send message).1.id = watcher.id := by
  unfold send
  split
  · rfl
  · split
    · rfl
    · rfl

@[simp]
theorem send_queue (message : Message) :
    (watcher.send message).1.queue = watcher.queue ++ [message] := by
  unfold send
  split
  · rfl
  · split
    · rfl
    · rfl

/-- `promise.set_value` does not throw. -/
theorem Promised.send_returns (promised : watcher.Promised)
    (message : Message) : (watcher.send message).2 = false := by
  unfold Promised at promised
  unfold send
  split
  · rfl
  · rename_i unresolved
    simp [← promised, unresolved]

theorem Promised.send (promised : watcher.Promised) (message : Message) :
    (watcher.send message).1.Promised := by
  unfold Promised at *
  unfold Watcher.send
  split
  · exact promised
  · rename_i unresolved
    simp [← promised, unresolved]

theorem promised_asyncWait : watcher.asyncWait.1.Promised :=
  rfl

end Watcher

/-! ## The map and the objects -/

namespace State

/-- The map has an entry for the object. -/
def Registered (state : State Message) (pointer : Pointer) : Prop :=
  pointer ∈ state.watchers.map Prod.snd

instance (state : State Message) (pointer : Pointer) :
    Decidable (state.Registered pointer) :=
  inferInstanceAs (Decidable (pointer ∈ state.watchers.map Prod.snd))

/-- The entries that `Send` has not visited yet. -/
def ahead (state : State Message) : List Entry :=
  state.sending.elim [] Sending.remaining

/-- An object agrees with its entries in the map. -/
structure Counted (state : State Message) (pointer : Pointer)
    (object : Object Message) : Prop where
  promised : object.watcher.Promised
  useCount_eq :
    object.useCount =
      object.handles + if state.Registered pointer then 1 else 0

/-- The map points to live objects, which have different addresses. -/
structure Sound (state : State Message) : Prop where
  unborn : ∀ pointer, state.created ≤ pointer → state.objects pointer = none
  identity :
    ∀ first second left right,
      state.objects first = some left →
      state.objects second = some right →
      left.watcher.id = right.watcher.id → first = second
  entry_live :
    ∀ entry ∈ state.watchers, ∃ object,
      state.objects entry.2 = some object ∧ object.watcher.id = entry.1
  counted :
    ∀ pointer object,
      state.objects pointer = some object → state.Counted pointer object
  nodup : (state.watchers.map Prod.snd).Nodup
  ahead_nodup : (state.ahead.map Prod.snd).Nodup
  ahead_sub : ∀ entry ∈ state.ahead, entry ∈ state.watchers

theorem sound_create : (create : State Message).Sound where
  unborn := fun _ _ => rfl
  identity := by simp [create]
  entry_live := by simp [create]
  counted := by simp [create]
  nodup := by simp [create]
  ahead_nodup := by simp [create, ahead]
  ahead_sub := by simp [create, ahead]

theorem held_eq_some {state : State Message} {pointer : Pointer}
    {object : Object Message} (holds : state.held pointer = some object) :
    state.objects pointer = some object ∧ 0 < object.handles := by
  simpa [held, Option.filter_eq_some_iff] using holds

theorem held_of_objects {state : State Message} {pointer : Pointer}
    {object : Object Message} (alive : state.objects pointer = some object)
    (positive : 0 < object.handles) : state.held pointer = some object := by
  simp [held, alive, Option.filter, positive]

section Writes

variable {state : State Message} {pointer : Pointer}

theorem Sound.born (sound : state.Sound) {object : Object Message}
    (alive : state.objects pointer = some object) : pointer < state.created := by
  apply Nat.lt_of_not_le
  intro late
  simp [sound.unborn pointer late] at alive

/-- Writing the log leaves the map and the objects alone. -/
theorem Sound.record (sound : state.Sound) (event : Event Message) :
    (state.record event).Sound :=
  ⟨sound.unborn, sound.identity, sound.entry_live,
    fun pointer object alive =>
      ⟨(sound.counted pointer object alive).promised,
        (sound.counted pointer object alive).useCount_eq⟩,
    sound.nodup, sound.ahead_nodup, sound.ahead_sub⟩

/-- The iterator may be moved to any entries of the map. -/
theorem Sound.setSending (sound : state.Sound)
    (sending : Option (Sending Message))
    (nodup : ((sending.elim [] Sending.remaining).map Prod.snd).Nodup)
    (inside :
      ∀ entry ∈ sending.elim [] Sending.remaining, entry ∈ state.watchers) :
    { state with sending := sending }.Sound :=
  ⟨sound.unborn, sound.identity, sound.entry_live,
    fun pointer object alive =>
      ⟨(sound.counted pointer object alive).promised,
        (sound.counted pointer object alive).useCount_eq⟩,
    sound.nodup, nodup, inside⟩

/--
An object may be replaced by one with its identifier that agrees with the map,
and it may be freed when the map has no entry for it.
-/
theorem Sound.setObject (sound : state.Sound) {old : Object Message}
    (alive : state.objects pointer = some old)
    {object : Option (Object Message)}
    (written :
      ∀ new, object = some new →
        new.watcher.id = old.watcher.id ∧ state.Counted pointer new)
    (freed : object = none → ¬ state.Registered pointer) :
    (state.setObject pointer object).Sound := by
  have objects_eq :
      ∀ other new, (state.setObject pointer object).objects other = some new →
        ∃ earlier, state.objects other = some earlier ∧
          new.watcher.id = earlier.watcher.id ∧ state.Counted other new := by
    intro other new found
    by_cases same : other = pointer
    · subst same
      have object_eq : object = some new := by
        simpa [State.setObject] using found
      exact ⟨old, alive, (written new object_eq).1, (written new object_eq).2⟩
    · have kept : state.objects other = some new := by
        simpa [State.setObject, same] using found
      exact ⟨new, kept, rfl, sound.counted other new kept⟩
  refine
    ⟨?unborn, ?identity, ?entry_live, ?counted, sound.nodup, sound.ahead_nodup,
      sound.ahead_sub⟩
  case unborn =>
    intro other late
    have other_ne : other ≠ pointer := by
      intro same
      subst same
      simp [sound.unborn other late] at alive
    simpa [State.setObject, other_ne] using sound.unborn other late
  case identity =>
    intro first second left right found_left found_right id_eq
    obtain ⟨earlier_left, alive_left, left_id, -⟩ :=
      objects_eq first left found_left
    obtain ⟨earlier_right, alive_right, right_id, -⟩ :=
      objects_eq second right found_right
    exact
      sound.identity first second earlier_left earlier_right alive_left
        alive_right (by rw [← left_id, ← right_id, id_eq])
  case entry_live =>
    intro entry member
    obtain ⟨target, target_alive, target_id⟩ := sound.entry_live entry member
    by_cases same : entry.2 = pointer
    · cases object_eq : object with
      | none =>
          refine absurd ?_ (freed object_eq)
          exact List.mem_map.mpr ⟨entry, member, same⟩
      | some new =>
          refine ⟨new, by simp [State.setObject, same], ?_⟩
          rw [same, alive] at target_alive
          cases target_alive
          rw [(written new object_eq).1, target_id]
    · exact ⟨target, by simpa [State.setObject, same] using target_alive, target_id⟩
  case counted =>
    intro other new found
    obtain ⟨-, -, -, counted⟩ := objects_eq other new found
    exact ⟨counted.promised, counted.useCount_eq⟩

/-- The only entry with the identifier of an object is its own. -/
theorem Sound.entry_unique (sound : state.Sound) {entry other : Entry}
    (member : entry ∈ state.watchers) (otherMember : other ∈ state.watchers) :
    entry.1 = other.1 ↔ entry.2 = other.2 := by
  obtain ⟨object, alive, id_eq⟩ := sound.entry_live entry member
  obtain ⟨target, target_alive, target_id⟩ := sound.entry_live other otherMember
  constructor
  · intro key_eq
    exact
      sound.identity entry.2 other.2 object target alive target_alive
        (by rw [id_eq, target_id, key_eq])
  · intro pointer_eq
    rw [pointer_eq, target_alive] at alive
    cases alive
    rw [← id_eq, target_id]

/-- Erasing an entry unregisters its object and no other. -/
theorem Sound.registered_erase (sound : state.Sound) {entry : Entry}
    (member : entry ∈ state.watchers) :
    (state.erase entry).Registered pointer ↔
      state.Registered pointer ∧ pointer ≠ entry.2 := by
  simp only [Registered, State.erase, List.mem_map, List.mem_filter, bne_iff_ne]
  constructor
  · rintro ⟨other, ⟨otherMember, key_ne⟩, rfl⟩
    refine ⟨⟨other, otherMember, rfl⟩, ?_⟩
    intro pointer_eq
    exact key_ne ((sound.entry_unique otherMember member).mpr pointer_eq)
  · rintro ⟨⟨other, otherMember, rfl⟩, pointer_ne⟩
    refine ⟨other, ⟨otherMember, ?_⟩, rfl⟩
    intro key_eq
    exact pointer_ne ((sound.entry_unique otherMember member).mp key_eq)

/-- An object after the shared pointer of its entry is gone. -/
theorem Sound.objects_erase (sound : state.Sound) {entry : Entry}
    (member : entry ∈ state.watchers) {new : Object Message}
    (found : (state.erase entry).objects pointer = some new) :
    ∃ old, state.objects pointer = some old ∧ new.watcher = old.watcher ∧
      new.handles = old.handles ∧ (state.erase entry).Counted pointer new := by
  by_cases same : pointer = entry.2
  · subst same
    obtain ⟨old, alive, -⟩ := sound.entry_live entry member
    have counted := sound.counted _ old alive
    have registered : state.Registered entry.2 :=
      List.mem_map.mpr ⟨entry, member, rfl⟩
    have released : old.release = some new := by
      simpa [State.erase, alive] using found
    simp only [Object.release] at released
    split at released
    · cases released
    · cases released
      refine ⟨old, alive, rfl, rfl, counted.promised, ?_⟩
      have useCount_eq := counted.useCount_eq
      rw [if_pos registered] at useCount_eq
      have unregistered : ¬ (state.erase entry).Registered entry.2 := by
        simp [sound.registered_erase member]
      rw [if_neg unregistered]
      simp [useCount_eq]
  · have alive : state.objects pointer = some new := by
      simpa [State.erase, same] using found
    have counted := sound.counted pointer new alive
    refine ⟨new, alive, rfl, rfl, counted.promised, ?_⟩
    simpa [sound.registered_erase member, same] using counted.useCount_eq

/-- The map and the objects after an erasure, with the iterator moved on. -/
theorem Sound.erase (sound : state.Sound) {entry : Entry}
    (member : entry ∈ state.watchers) (sending : Option (Sending Message))
    (nodup : ((sending.elim [] Sending.remaining).map Prod.snd).Nodup)
    (inside :
      ∀ other ∈ sending.elim [] Sending.remaining,
        other ∈ state.watchers ∧ other.2 ≠ entry.2) :
    { state.erase entry with sending := sending }.Sound := by
  refine ⟨?unborn, ?identity, ?entry_live, ?counted, ?nodup, nodup, ?inside⟩
  case unborn =>
    intro other late
    have missing := sound.unborn other late
    by_cases same : other = entry.2
    · subst same
      simp [State.erase, missing]
    · simpa [State.erase, same] using missing
  case identity =>
    intro first second left right found_left found_right id_eq
    obtain ⟨earlier_left, alive_left, left_eq, -⟩ :=
      sound.objects_erase member found_left
    obtain ⟨earlier_right, alive_right, right_eq, -⟩ :=
      sound.objects_erase member found_right
    exact
      sound.identity first second earlier_left earlier_right alive_left
        alive_right (by rw [← left_eq, ← right_eq, id_eq])
  case entry_live =>
    intro other otherMember
    simp only [State.erase, List.mem_filter, bne_iff_ne] at otherMember
    obtain ⟨target, target_alive, target_id⟩ :=
      sound.entry_live other otherMember.1
    have pointer_ne : other.2 ≠ entry.2 := by
      intro same
      exact otherMember.2 ((sound.entry_unique otherMember.1 member).mpr same)
    exact ⟨target, by simpa [State.erase, pointer_ne] using target_alive, target_id⟩
  case counted =>
    intro other new found
    obtain ⟨-, -, -, -, counted⟩ := sound.objects_erase member found
    exact ⟨counted.promised, counted.useCount_eq⟩
  case nodup =>
    exact sound.nodup.sublist (List.filter_sublist.map Prod.snd)
  case inside =>
    intro other otherAhead
    obtain ⟨otherMember, pointer_ne⟩ := inside other otherAhead
    simp only [State.erase, List.mem_filter, bne_iff_ne]
    refine ⟨otherMember, ?_⟩
    intro key_eq
    exact pointer_ne ((sound.entry_unique otherMember member).mp key_eq)

end Writes

/-! ## The steps -/

section Steps

variable {source target : State Message} {pointer : Pointer}

/-- The address of a new watcher is not in the map, so the entry is inserted. -/
theorem Sound.insert_free (sound : source.Sound) {address : ObjectID}
    (free : source.isFree address) :
    source.insert (address, source.created) =
      source.watchers.orderedInsert (fun left right => left.1 ≤ right.1)
        (address, source.created) := by
  rw [insert, if_neg]
  intro taken
  obtain ⟨entry, member, key_eq⟩ := List.any_eq_true.mp taken
  obtain ⟨object, alive, id_eq⟩ := sound.entry_live entry member
  have address_ne :=
    List.all_eq_true.mp free entry.2 (List.mem_range.mpr (sound.born alive))
  simp only [alive, Option.all_some, bne_iff_ne] at address_ne
  exact address_ne (by rw [id_eq]; simpa using key_eq)

/-- What `Watch` does. -/
structure Watched (source target : State Message) (address : ObjectID) : Prop where
  idle : source.sending = none
  idle' : target.sending = none
  free : source.isFree address = true
  created_eq : target.created = source.created + 1
  objects_eq :
    target.objects =
      Function.update source.objects source.created
        (some ⟨.create address, 2, 1⟩)
  log_eq : target.log = source.log ++ [.watched source.created]
  watchers_perm :
    target.watchers.Perm ((address, source.created) :: source.watchers)

theorem Sound.watch_eq_some (sound : source.Sound) {address : ObjectID}
    (taken : source.watch address = some target) :
    Watched source target address := by
  simp only [watch, Bool.and_eq_true, Option.isNone_iff_eq_none,
    Option.ite_none_right_eq_some, Option.some.injEq] at taken
  obtain ⟨⟨idle, free⟩, rfl⟩ := taken
  have inserted := sound.insert_free free
  refine ⟨idle, idle, free, rfl, ?_, rfl, ?_⟩
  · simp only [Watcher.getID, Watcher.create, inserted, List.mem_orderedInsert,
      true_or, if_true]
  · simp only [Watcher.getID, Watcher.create, inserted]
    exact List.perm_orderedInsert _ _ _

theorem Watched.registered_iff {address : ObjectID}
    (watched : Watched source target address) :
    target.Registered pointer ↔
      pointer = source.created ∨ source.Registered pointer := by
  rw [Registered, (watched.watchers_perm.map Prod.snd).mem_iff]
  simp [Registered]

theorem Sound.watch (sound : source.Sound) {address : ObjectID}
    (watched : Watched source target address) : target.Sound := by
  have objects_cases :
      ∀ other new, target.objects other = some new →
        (other = source.created ∧ new = ⟨.create address, 2, 1⟩) ∨
          other ≠ source.created ∧ source.objects other = some new := by
    intro other new found
    rw [watched.objects_eq] at found
    by_cases same : other = source.created
    · subst same
      simp only [Function.update_self, Option.some.injEq] at found
      exact .inl ⟨rfl, found.symm⟩
    · exact .inr ⟨same, by simpa [same] using found⟩
  have id_ne : ∀ other old, source.objects other = some old →
      old.watcher.id ≠ address := by
    intro other old alive
    have address_ne :=
      List.all_eq_true.mp watched.free other (List.mem_range.mpr (sound.born alive))
    simpa [alive] using address_ne
  have unregistered : ¬ source.Registered source.created := by
    intro registered
    obtain ⟨entry, member, same⟩ := List.mem_map.mp registered
    obtain ⟨object, alive, -⟩ := sound.entry_live entry member
    exact Nat.ne_of_lt (sound.born alive) same
  refine ⟨?unborn, ?identity, ?entry_live, ?counted, ?nodup, ?ahead, ?inside⟩
  case unborn =>
    intro other late
    rw [watched.created_eq] at late
    have other_ne : other ≠ source.created := by omega
    rw [watched.objects_eq, Function.update_of_ne other_ne]
    exact sound.unborn other (by omega)
  case identity =>
    intro first second left right found_left found_right id_eq
    rcases objects_cases first left found_left with
      ⟨rfl, rfl⟩ | ⟨-, alive_left⟩
    · rcases objects_cases second right found_right with
        ⟨rfl, -⟩ | ⟨-, alive_right⟩
      · rfl
      · exact absurd id_eq.symm (id_ne second right alive_right)
    · rcases objects_cases second right found_right with
        ⟨-, rfl⟩ | ⟨-, alive_right⟩
      · exact absurd id_eq (id_ne first left alive_left)
      · exact
          sound.identity first second left right alive_left alive_right id_eq
  case entry_live =>
    intro entry member
    rcases List.mem_cons.mp (watched.watchers_perm.mem_iff.mp member) with
      rfl | earlier
    · exact ⟨⟨.create address, 2, 1⟩, by simp [watched.objects_eq], rfl⟩
    · obtain ⟨object, alive, id_eq⟩ := sound.entry_live entry earlier
      have other_ne := Nat.ne_of_lt (sound.born alive)
      exact ⟨object, by simpa [watched.objects_eq, other_ne] using alive, id_eq⟩
  case counted =>
    intro other new found
    rcases objects_cases other new found with ⟨rfl, rfl⟩ | ⟨other_ne, alive⟩
    · exact ⟨Watcher.promised_create address, by simp [watched.registered_iff]⟩
    · have counted := sound.counted other new alive
      refine ⟨counted.promised, ?_⟩
      simpa [watched.registered_iff, other_ne] using counted.useCount_eq
  case nodup =>
    rw [(watched.watchers_perm.map Prod.snd).nodup_iff]
    simpa using ⟨fun key member => unregistered (List.mem_map.mpr ⟨_, member, rfl⟩),
      sound.nodup⟩
  case ahead => simp [ahead, watched.idle']
  case inside => simp [ahead, watched.idle']

/-- What `UnWatch` does: it removes the entry of its own watcher, if any. -/
theorem Sound.unWatch_eq_some (sound : source.Sound)
    (taken : source.unWatch pointer = some target) :
    source.sending = none ∧ pointer < source.created ∧
      ((∃ entry ∈ source.watchers, entry.2 = pointer ∧
          target = (source.erase entry).record (.unwatched pointer)) ∨
        (¬ source.Registered pointer ∧
          target = source.record (.unwatched pointer))) := by
  simp only [unWatch, Option.isNone_iff_eq_none, Option.ite_none_right_eq_some,
    Option.map_eq_some_iff] at taken
  obtain ⟨idle, object, holds, rfl⟩ := taken
  obtain ⟨alive, -⟩ := held_eq_some holds
  refine ⟨idle, sound.born alive, ?_⟩
  cases search :
      source.watchers.find? fun entry => entry.1 == object.watcher.getID with
  | none =>
      refine .inr ⟨?_, rfl⟩
      intro registered
      obtain ⟨entry, member, same⟩ := List.mem_map.mp registered
      obtain ⟨found, found_alive, id_eq⟩ := sound.entry_live entry member
      rw [same, alive] at found_alive
      cases found_alive
      have key_ne := List.find?_eq_none.mp search entry member
      exact key_ne (by simp [Watcher.getID, id_eq])
  | some entry =>
      have member := List.mem_of_find?_eq_some search
      have key_eq := List.find?_some search
      obtain ⟨found, found_alive, id_eq⟩ := sound.entry_live entry member
      have same : entry.2 = pointer :=
        sound.identity entry.2 pointer found object found_alive alive
          (by rw [id_eq]; simpa [Watcher.getID] using key_eq)
      exact .inl ⟨entry, member, same, rfl⟩

/--
What an iteration of `Send` does: it pushes the message, or drops a watcher that
no user holds.
-/
theorem Sound.visit_eq_some (sound : source.Sound)
    (taken : source.visit = some target) :
    ∃ message entry rest object,
      source.sending = some ⟨message, entry :: rest⟩ ∧
      source.objects entry.2 = some object ∧
      (target =
          { source.setObject entry.2
              (some { object with watcher := (object.watcher.send message).1 }) with
            sending := some ⟨message, rest⟩ } ∨
        (object.handles = 0 ∧
          target = { source.erase entry with sending := some ⟨message, rest⟩ })) := by
  unfold visit at taken
  split at taken
  · rename_i message entry rest sending_eq
    obtain ⟨object, alive, rfl⟩ := Option.map_eq_some_iff.mp taken
    refine ⟨message, entry, rest, object, sending_eq, alive, ?_⟩
    have counted := sound.counted _ object alive
    split
    · have returns := counted.promised.send_returns message
      exact .inl (by simp [returns])
    · rename_i few
      have member : entry ∈ source.watchers :=
        sound.ahead_sub entry (by simp [ahead, sending_eq])
      have registered : source.Registered entry.2 :=
        List.mem_map.mpr ⟨entry, member, rfl⟩
      have useCount_eq := counted.useCount_eq
      rw [if_pos registered] at useCount_eq
      exact .inr ⟨by omega, rfl⟩
  · cases taken

theorem Sound.visit (sound : source.Sound)
    (taken : source.visit = some target) : target.Sound := by
  obtain ⟨message, entry, rest, object, sending_eq, alive, delivered | dropped⟩ :=
    sound.visit_eq_some taken
  all_goals
    have ahead_eq : source.ahead = entry :: rest := by simp [ahead, sending_eq]
    have nodup := sound.ahead_nodup
    have inside := sound.ahead_sub
    rw [ahead_eq] at nodup inside
    simp only [List.map_cons, List.nodup_cons] at nodup
  · subst delivered
    have counted := sound.counted _ object alive
    have written :
        (source.setObject entry.2
          (some { object with
            watcher := (object.watcher.send message).1 })).Sound := by
      refine sound.setObject alive ?_ (by simp)
      rintro new ⟨⟩
      exact ⟨by simp, counted.promised.send message, counted.useCount_eq⟩
    exact
      written.setSending (some ⟨message, rest⟩) nodup.2
        fun other member => inside other (List.mem_cons_of_mem _ member)
  · obtain ⟨-, rfl⟩ := dropped
    refine sound.erase (inside entry List.mem_cons_self) _ nodup.2 ?_
    intro other member
    refine ⟨inside other (List.mem_cons_of_mem _ member), ?_⟩
    intro same
    exact nodup.1 (List.mem_map.mpr ⟨other, member, same⟩)

/-- Dropping a shared pointer frees an object only when the map has no entry. -/
theorem Sound.drop (sound : source.Sound)
    (taken : source.drop pointer = some target) : target.Sound := by
  obtain ⟨object, holds, rfl⟩ := Option.map_eq_some_iff.mp taken
  obtain ⟨alive, positive⟩ := held_eq_some holds
  have counted := sound.counted pointer object alive
  have useCount_eq := counted.useCount_eq
  refine sound.setObject alive ?written ?freed
  case written =>
    intro new released
    simp only [Object.release, Option.ite_none_left_eq_some, Option.some.injEq]
      at released
    obtain ⟨-, rfl⟩ := released
    refine ⟨rfl, counted.promised, ?_⟩
    simp only
    omega
  case freed =>
    intro released registered
    rw [if_pos registered] at useCount_eq
    simp only [Object.release] at released
    split at released
    · omega
    · cases released

/-- What `TryReceive` does. -/
theorem tryReceive_eq_some (taken : source.tryReceive pointer = some target) :
    ∃ object, source.held pointer = some object ∧
      (target = source.setObject pointer (some object) ∨
        ∃ message rest,
          object.watcher.queue = message :: rest ∧
          target =
            (source.setObject pointer
              (some
                { object with
                  watcher := { object.watcher with queue := rest } })).record
              (.received pointer message)) := by
  obtain ⟨object, holds, rfl⟩ := Option.map_eq_some_iff.mp taken
  refine ⟨object, holds, ?_⟩
  cases queue_eq : object.watcher.queue with
  | nil => exact .inl (by simp [Watcher.tryReceive, queue_eq])
  | cons message rest =>
      exact .inr ⟨message, rest, rfl, by simp [Watcher.tryReceive, queue_eq]⟩

theorem Sound.next (sound : source.Sound) {action : Action Message}
    (taken : source.next action = some target) : target.Sound := by
  cases action with
  | watch address => exact sound.watch (sound.watch_eq_some taken)
  | unWatch pointer =>
      obtain ⟨idle, -, ⟨entry, member, -, rfl⟩ | ⟨-, rfl⟩⟩ :=
        sound.unWatch_eq_some taken
      · have erased := sound.erase member none (by simp) (by simp)
        have idle_erased : (source.erase entry).sending = none := idle
        rw [← idle_erased] at erased
        exact erased.record _
      · exact sound.record _
  | send message =>
      simp only [State.next, State.send, Option.ite_none_right_eq_some,
        Option.some.injEq] at taken
      obtain ⟨-, rfl⟩ := taken
      exact
        (sound.setSending (some ⟨message, source.watchers⟩) sound.nodup
          fun _ member => member).record _
  | visit => exact sound.visit taken
  | finish =>
      simp only [State.next, State.finish] at taken
      split at taken
      · cases taken
        exact sound.setSending none (by simp) (by simp)
      · cases taken
  | tryReceive pointer =>
      obtain ⟨object, holds, unchanged | ⟨message, rest, -, popped⟩⟩ :=
        tryReceive_eq_some taken
      all_goals
        obtain ⟨alive, -⟩ := held_eq_some holds
        have counted := sound.counted pointer object alive
      · subst unchanged
        refine sound.setObject alive ?_ (by simp)
        rintro new ⟨⟩
        exact ⟨rfl, counted⟩
      · subst popped
        refine (sound.setObject alive ?_ (by simp)).record _
        rintro new ⟨⟩
        exact ⟨rfl, counted.promised, counted.useCount_eq⟩
  | asyncWait pointer =>
      obtain ⟨object, holds, rfl⟩ := Option.map_eq_some_iff.mp taken
      obtain ⟨alive, -⟩ := held_eq_some holds
      have counted := sound.counted pointer object alive
      refine sound.setObject alive ?_ (by simp)
      rintro new ⟨⟩
      exact ⟨rfl, Watcher.promised_asyncWait, counted.useCount_eq⟩
  | copy pointer =>
      obtain ⟨object, holds, rfl⟩ := Option.map_eq_some_iff.mp taken
      obtain ⟨alive, -⟩ := held_eq_some holds
      have counted := sound.counted pointer object alive
      refine sound.setObject alive ?_ (by simp)
      rintro new ⟨⟩
      refine ⟨rfl, counted.promised, ?_⟩
      have useCount_eq := counted.useCount_eq
      simp only
      omega
  | drop pointer => exact sound.drop taken

end Steps

theorem sound_of_reachable {state : State Message}
    (reachable : (system Message).Reachable state) : state.Sound := by
  apply reachable.invariant
  · rintro state rfl
    exact sound_create
  · intro source action target _ _ taken sound
    exact sound.next taken

/-! ## What a watcher has received and what its queue holds -/

/-- The message of a `Send` under way that has not reached the watcher. -/
def undelivered (state : State Message) (pointer : Pointer) : List Message :=
  match state.sending with
  | none => []
  | some sending =>
      if pointer ∈ sending.remaining.map Prod.snd then [sending.message] else []

/-- The law for one watcher. -/
structure Lawful (state : State Message) (pointer : Pointer)
    (watcher : Watcher Message) : Prop where
  isOpen_iff :
    (windowOf pointer state.log).isOpen = true ↔ state.Registered pointer
  balance :
    receivedBy pointer state.log ++ watcher.queue ++ state.undelivered pointer =
      sentBetween pointer state.log

/-- The law for the watchers that users hold; the others to come have no history. -/
structure Law (state : State Message) : Prop where
  lawful :
    ∀ pointer object,
      state.held pointer = some object → Lawful state pointer object.watcher
  unborn_window :
    ∀ pointer, state.created ≤ pointer →
      windowOf pointer state.log = ⟨false, []⟩ ∧ receivedBy pointer state.log = []

theorem law_create : (create : State Message).Law where
  lawful := by simp [create, held]
  unborn_window := fun _ _ => ⟨rfl, rfl⟩

section Law

variable {source target : State Message} {pointer : Pointer}

@[simp]
theorem record_log (event : Event Message) :
    (source.record event).log = source.log ++ [event] :=
  rfl

@[simp]
theorem setObject_log (object : Option (Object Message)) :
    (source.setObject pointer object).log = source.log :=
  rfl

@[simp]
theorem record_undelivered (event : Event Message) :
    (source.record event).undelivered pointer = source.undelivered pointer :=
  rfl

@[simp]
theorem setObject_undelivered {other : Pointer}
    (object : Option (Object Message)) :
    (source.setObject other object).undelivered pointer =
      source.undelivered pointer :=
  rfl

theorem undelivered_of_idle (idle : source.sending = none) :
    source.undelivered pointer = [] := by
  simp [undelivered, idle]

/-- The law only depends on the history, the queue, the map and the iterator. -/
theorem Lawful.congr {old new : Watcher Message}
    (lawful : Lawful source pointer old)
    (window_eq : windowOf pointer target.log = windowOf pointer source.log)
    (received_eq : receivedBy pointer target.log = receivedBy pointer source.log)
    (queue_eq : new.queue = old.queue)
    (undelivered_eq : target.undelivered pointer = source.undelivered pointer)
    (registered_iff : target.Registered pointer ↔ source.Registered pointer) :
    Lawful target pointer new where
  isOpen_iff := by rw [window_eq, registered_iff, lawful.isOpen_iff]
  balance := by
    rw [received_eq, queue_eq, undelivered_eq, sentBetween, window_eq]
    exact lawful.balance

/-- The user of an object that was written held it before, or it is another one. -/
theorem held_setObject {written : Option (Object Message)} {other : Pointer}
    {new : Object Message}
    (holds : (source.setObject pointer written).held other = some new) :
    (other = pointer ∧ written = some new ∧ 0 < new.handles) ∨
      other ≠ pointer ∧ source.held other = some new := by
  obtain ⟨alive, positive⟩ := held_eq_some holds
  by_cases same : other = pointer
  · subst same
    exact .inl ⟨rfl, by simpa [setObject] using alive, positive⟩
  · have kept : source.objects other = some new := by
      simpa [setObject, same] using alive
    exact .inr ⟨same, held_of_objects kept positive⟩

/-- A write to an object that keeps its queue keeps the law. -/
theorem Law.setObject (law : source.Law) {old : Object Message}
    (holds : source.held pointer = some old)
    {written : Option (Object Message)}
    (queue_eq :
      ∀ new, written = some new → new.watcher.queue = old.watcher.queue) :
    (source.setObject pointer written).Law := by
  refine ⟨?_, law.unborn_window⟩
  intro other new found
  rcases held_setObject found with ⟨rfl, written_eq, -⟩ | ⟨-, kept⟩
  · exact
      (law.lawful other old holds).congr rfl rfl (queue_eq new written_eq) rfl
        Iff.rfl
  · exact (law.lawful other new kept).congr rfl rfl rfl rfl Iff.rfl

theorem Law.watch (law : source.Law) {address : ObjectID}
    (watched : Watched source target address) : target.Law := by
  constructor
  · intro other new holds
    obtain ⟨alive, positive⟩ := held_eq_some holds
    rw [watched.objects_eq] at alive
    by_cases same : other = source.created
    · subst same
      simp only [Function.update_self, Option.some.injEq] at alive
      subst alive
      obtain ⟨window_eq, received_eq⟩ :=
        law.unborn_window source.created (Nat.le_refl _)
      constructor
      · simp [watched.log_eq, windowOf_concat, Window.extend,
          watched.registered_iff]
      · simp [watched.log_eq, receivedBy_concat, Event.receipt, received_eq,
          sentBetween, windowOf_concat, window_eq, Window.extend,
          Watcher.create, undelivered_of_idle watched.idle']
    · rw [Function.update_of_ne same] at alive
      refine
        (law.lawful other new (held_of_objects alive positive)).congr ?_ ?_ rfl ?_ ?_
      · simp [watched.log_eq, windowOf_concat, Window.extend, Ne.symm same]
      · simp [watched.log_eq, receivedBy_concat, Event.receipt]
      · rw [undelivered_of_idle watched.idle, undelivered_of_idle watched.idle']
      · simp [watched.registered_iff, same]
  · intro other late
    rw [watched.created_eq] at late
    have other_ne : source.created ≠ other := by omega
    simpa [watched.log_eq, windowOf_concat, Window.extend, other_ne,
      receivedBy_concat, Event.receipt] using law.unborn_window other (by omega)

/-- `UnWatch` closes the window of its watcher and of no other. -/
theorem Law.unWatch (law : source.Law) (sound : source.Sound)
    (taken : source.unWatch pointer = some target) : target.Law := by
  obtain ⟨idle, born, removed⟩ := sound.unWatch_eq_some taken
  have log_eq : target.log = source.log ++ [.unwatched pointer] := by
    rcases removed with ⟨entry, -, -, rfl⟩ | ⟨-, rfl⟩
    · rfl
    · rfl
  have created_eq : target.created = source.created := by
    rcases removed with ⟨entry, -, -, rfl⟩ | ⟨-, rfl⟩
    · rfl
    · rfl
  have idle' : target.sending = none := by
    rcases removed with ⟨entry, -, -, rfl⟩ | ⟨-, rfl⟩
    · exact idle
    · exact idle
  have registered_iff :
      ∀ other, target.Registered other ↔
        source.Registered other ∧ other ≠ pointer := by
    intro other
    rcases removed with ⟨entry, member, rfl, rfl⟩ | ⟨unregistered, rfl⟩
    · exact sound.registered_erase member
    · constructor
      · intro registered
        refine ⟨registered, ?_⟩
        rintro rfl
        exact unregistered registered
      · exact And.left
  have held_before :
      ∀ other new, target.held other = some new →
        ∃ old, source.held other = some old ∧
          new.watcher.queue = old.watcher.queue := by
    intro other new holds
    obtain ⟨alive, positive⟩ := held_eq_some holds
    rcases removed with ⟨entry, member, -, rfl⟩ | ⟨-, rfl⟩
    · obtain ⟨old, old_alive, watcher_eq, handles_eq, -⟩ :=
        sound.objects_erase member alive
      exact
        ⟨old, held_of_objects old_alive (by rwa [← handles_eq]), by rw [watcher_eq]⟩
    · exact ⟨new, held_of_objects alive positive, rfl⟩
  constructor
  · intro other new holds
    obtain ⟨old, old_holds, queue_eq⟩ := held_before other new holds
    have lawful := law.lawful other old old_holds
    by_cases same : other = pointer
    · subst same
      have balance := lawful.balance
      rw [undelivered_of_idle idle] at balance
      constructor
      · simp [log_eq, windowOf_concat, Window.extend, registered_iff]
      · rw [undelivered_of_idle idle', log_eq, receivedBy_concat, sentBetween,
          windowOf_concat, queue_eq]
        simpa [Event.receipt, Window.extend, sentBetween] using balance
    · refine lawful.congr ?_ ?_ queue_eq ?_ ?_
      · simp [log_eq, windowOf_concat, Window.extend, Ne.symm same]
      · simp [log_eq, receivedBy_concat, Event.receipt]
      · rw [undelivered_of_idle idle, undelivered_of_idle idle']
      · simp [registered_iff, same]
  · intro other late
    rw [created_eq] at late
    have other_ne := Nat.ne_of_lt (Nat.lt_of_lt_of_le born late)
    simpa [log_eq, windowOf_concat, Window.extend, other_ne, receivedBy_concat,
      Event.receipt] using law.unborn_window other late

/-- `Send` is recorded for the watchers that are registered, which it will visit. -/
theorem Law.send (law : source.Law) {message : Message}
    (taken : source.send message = some target) : target.Law := by
  simp only [State.send, Option.isNone_iff_eq_none, Option.ite_none_right_eq_some,
    Option.some.injEq] at taken
  obtain ⟨idle, rfl⟩ := taken
  constructor
  · intro other object holds
    have lawful := law.lawful other object holds
    have balance := lawful.balance
    rw [undelivered_of_idle idle, List.append_nil] at balance
    constructor
    · rw [record, windowOf_concat, Window.extend]
      split
      · exact lawful.isOpen_iff
      · exact lawful.isOpen_iff
    · simp only [record, undelivered, receivedBy_concat, Event.receipt,
        Option.toList_none, List.append_nil, sentBetween, windowOf_concat,
        Window.extend]
      by_cases registered : other ∈ source.watchers.map Prod.snd
      · rw [if_pos registered, if_pos (lawful.isOpen_iff.mpr registered), balance]
        rfl
      · rw [if_neg registered, if_neg (mt lawful.isOpen_iff.mp registered),
          List.append_nil, balance]
        rfl
  · intro other late
    obtain ⟨window_eq, received_eq⟩ := law.unborn_window other late
    simp [record, windowOf_concat, window_eq, Window.extend, receivedBy_concat,
      received_eq, Event.receipt]

/-- An iteration moves the message of `Send` to the queue of its watcher. -/
theorem Law.visit (law : source.Law) (sound : source.Sound)
    (taken : source.visit = some target) : target.Law := by
  obtain ⟨message, entry, rest, object, sending_eq, alive, delivered | dropped⟩ :=
    sound.visit_eq_some taken
  all_goals
    have nodup := sound.ahead_nodup
    simp only [ahead, sending_eq, Option.elim_some, List.map_cons,
      List.nodup_cons] at nodup
  · subst delivered
    refine ⟨?_, law.unborn_window⟩
    intro other new holds
    rcases held_setObject holds with ⟨rfl, written_eq, positive⟩ | ⟨other_ne, kept⟩
    · simp only [Option.some.injEq] at written_eq
      subst written_eq
      have lawful := law.lawful entry.2 object (held_of_objects alive positive)
      refine ⟨lawful.isOpen_iff, ?_⟩
      have balance := lawful.balance
      simp only [undelivered, sending_eq, List.map_cons, List.mem_cons, true_or,
        if_true] at balance
      simp only [undelivered, if_neg nodup.1, Watcher.send_queue,
        List.append_nil]
      rw [← List.append_assoc]
      exact balance
    · refine (law.lawful other new kept).congr rfl rfl rfl ?_ Iff.rfl
      simp only [undelivered, sending_eq, List.map_cons, List.mem_cons, other_ne,
        false_or]
  · obtain ⟨no_handles, rfl⟩ := dropped
    have member : entry ∈ source.watchers :=
      sound.ahead_sub entry (by simp [ahead, sending_eq])
    refine ⟨?_, law.unborn_window⟩
    intro other new holds
    obtain ⟨found, positive⟩ := held_eq_some holds
    obtain ⟨old, old_alive, watcher_eq, handles_eq, -⟩ :=
      sound.objects_erase member found
    have other_ne : other ≠ entry.2 := by
      rintro rfl
      rw [alive] at old_alive
      cases old_alive
      omega
    have lawful :=
      law.lawful other old (held_of_objects old_alive (by rwa [← handles_eq]))
    refine lawful.congr rfl rfl (by rw [watcher_eq]) ?_ ?_
    · simp only [undelivered, sending_eq, List.map_cons, List.mem_cons, other_ne,
        false_or]
    · refine (sound.registered_erase member).trans ?_
      simp [other_ne]

/-- `TryReceive` moves the front of the queue to what was received. -/
theorem Law.tryReceive (law : source.Law) (sound : source.Sound)
    (taken : source.tryReceive pointer = some target) : target.Law := by
  obtain ⟨object, holds, rfl | ⟨message, rest, queue_eq, rfl⟩⟩ :=
    tryReceive_eq_some taken
  · refine law.setObject holds ?_
    rintro new ⟨⟩
    rfl
  · constructor
    · intro other new found
      rcases held_setObject found with ⟨rfl, written_eq, -⟩ | ⟨other_ne, kept⟩
      · cases written_eq
        have lawful := law.lawful other object holds
        have balance := lawful.balance
        rw [queue_eq] at balance
        constructor
        · rw [record_log, windowOf_concat]
          exact lawful.isOpen_iff
        · rw [record_log, sentBetween, windowOf_concat, receivedBy_concat]
          simpa [Event.receipt, Window.extend, sentBetween] using balance
      · refine (law.lawful other new kept).congr ?_ ?_ rfl rfl Iff.rfl
        · rw [record_log, windowOf_concat]
          rfl
        · simp [receivedBy_concat, Event.receipt, Ne.symm other_ne]
    · intro other late
      have born := sound.born (held_eq_some holds).1
      have other_ne := Nat.ne_of_lt (Nat.lt_of_lt_of_le born late)
      simpa [windowOf_concat, Window.extend, receivedBy_concat, Event.receipt,
        other_ne] using law.unborn_window other late

theorem Law.next (law : source.Law) (sound : source.Sound)
    {action : Action Message} (taken : source.next action = some target) :
    target.Law := by
  cases action with
  | watch address => exact law.watch (sound.watch_eq_some taken)
  | unWatch pointer => exact law.unWatch sound taken
  | send message => exact law.send taken
  | visit => exact law.visit sound taken
  | finish =>
      simp only [State.next, State.finish] at taken
      split at taken
      · rename_i message sending_eq
        cases taken
        refine ⟨?_, law.unborn_window⟩
        intro other object holds
        refine (law.lawful other object holds).congr rfl rfl rfl ?_ Iff.rfl
        simp [undelivered, sending_eq]
      · cases taken
  | tryReceive pointer => exact law.tryReceive sound taken
  | asyncWait pointer =>
      obtain ⟨object, holds, rfl⟩ := Option.map_eq_some_iff.mp taken
      refine law.setObject holds ?_
      rintro new ⟨⟩
      rfl
  | copy pointer =>
      obtain ⟨object, holds, rfl⟩ := Option.map_eq_some_iff.mp taken
      refine law.setObject holds ?_
      rintro new ⟨⟩
      rfl
  | drop pointer =>
      obtain ⟨object, holds, rfl⟩ := Option.map_eq_some_iff.mp taken
      refine law.setObject holds ?_
      intro new released
      simp only [Object.release, Option.ite_none_left_eq_some,
        Option.some.injEq] at released
      obtain ⟨-, rfl⟩ := released
      rfl

end Law

theorem law_of_reachable {state : State Message}
    (reachable : (system Message).Reachable state) : state.Law := by
  apply reachable.invariant
  · rintro state rfl
    exact law_create
  · intro source action target earlier _ taken law
    exact law.next (sound_of_reachable earlier) taken

/-! ## Operations on one watcher leave the others alone -/

/-- The queue of a watcher; that of a watcher that was destroyed is empty. -/
def queueOf (state : State Message) (pointer : Pointer) : List Message :=
  (state.objects pointer).elim [] fun object => object.watcher.queue

/-- The watcher that a step is about. -/
def subject (state : State Message) : Action Message → Option Pointer
  | .watch _ => some state.created
  | .visit => state.ahead.head?.map Prod.snd
  | .send _ => none
  | .finish => none
  | .unWatch pointer => some pointer
  | .tryReceive pointer => some pointer
  | .asyncWait pointer => some pointer
  | .copy pointer => some pointer
  | .drop pointer => some pointer

/-- A step writes no object but that of its watcher. -/
theorem Sound.objects_of_ne {source target : State Message} {pointer : Pointer}
    (sound : source.Sound) {action : Action Message}
    (taken : source.next action = some target)
    (other : source.subject action ≠ some pointer) :
    target.objects pointer = source.objects pointer := by
  cases action with
  | watch address =>
      have watched := sound.watch_eq_some taken
      have pointer_ne : pointer ≠ source.created := by
        simpa [subject, eq_comm] using other
      rw [watched.objects_eq, Function.update_of_ne pointer_ne]
  | unWatch subject =>
      have pointer_ne : pointer ≠ subject := by
        simpa [State.subject, eq_comm] using other
      obtain ⟨-, -, ⟨entry, -, rfl, rfl⟩ | ⟨-, rfl⟩⟩ :=
        sound.unWatch_eq_some taken
      · exact Function.update_of_ne pointer_ne _ _
      · rfl
  | send message =>
      simp only [State.next, State.send, Option.ite_none_right_eq_some,
        Option.some.injEq] at taken
      obtain ⟨-, rfl⟩ := taken
      rfl
  | visit =>
      obtain ⟨message, entry, rest, object, sending_eq, -, rfl | ⟨-, rfl⟩⟩ :=
        sound.visit_eq_some taken
      all_goals
        have pointer_ne : pointer ≠ entry.2 := by
          simpa [subject, ahead, sending_eq, eq_comm] using other
      · exact Function.update_of_ne pointer_ne _ _
      · exact Function.update_of_ne pointer_ne _ _
  | finish =>
      simp only [State.next, State.finish] at taken
      split at taken
      · cases taken
        rfl
      · cases taken
  | tryReceive subject =>
      have pointer_ne : pointer ≠ subject := by
        simpa [State.subject, eq_comm] using other
      obtain ⟨object, -, rfl | ⟨message, rest, -, rfl⟩⟩ := tryReceive_eq_some taken
      · exact Function.update_of_ne pointer_ne _ _
      · exact Function.update_of_ne pointer_ne _ _
  | asyncWait subject =>
      obtain ⟨object, -, rfl⟩ := Option.map_eq_some_iff.mp taken
      exact Function.update_of_ne (by simpa [State.subject, eq_comm] using other) _ _
  | copy subject =>
      obtain ⟨object, -, rfl⟩ := Option.map_eq_some_iff.mp taken
      exact Function.update_of_ne (by simpa [State.subject, eq_comm] using other) _ _
  | drop subject =>
      obtain ⟨object, -, rfl⟩ := Option.map_eq_some_iff.mp taken
      exact Function.update_of_ne (by simpa [State.subject, eq_comm] using other) _ _

/-- A user has a shared pointer to the watcher. -/
def KeptAlive (state : State Message) (pointer : Pointer) : Prop :=
  (state.held pointer).isSome = true

/--
In every state of every run, what a watcher kept alive by its user received is a
prefix of the messages sent between its `Watch` and its `UnWatch`, and the rest
is its queue and the message of a `Send` that has not reached it.  When no `Send`
is under way the rest is the queue.  A step about another watcher does not change
the queue.
-/
theorem reliable_ordered_broadcast {state : State Message}
    (reachable : (system Message).Reachable state) (pointer : Pointer) :
    (state.KeptAlive pointer →
      receivedBy pointer state.log ++ state.queueOf pointer ++
          state.undelivered pointer =
        sentBetween pointer state.log ∧
      (state.sending = none →
        receivedBy pointer state.log ++ state.queueOf pointer =
          sentBetween pointer state.log)) ∧
    ∀ action target,
      state.next action = some target →
      state.subject action ≠ some pointer →
      target.queueOf pointer = state.queueOf pointer := by
  constructor
  · intro kept
    obtain ⟨object, holds⟩ := Option.isSome_iff_exists.mp kept
    have balance := ((law_of_reachable reachable).lawful pointer object holds).balance
    have queue_eq : state.queueOf pointer = object.watcher.queue := by
      simp [queueOf, (held_eq_some holds).1]
    rw [queue_eq]
    refine ⟨balance, ?_⟩
    intro idle
    rwa [undelivered_of_idle idle, List.append_nil] at balance
  · intro action target taken other
    rw [queueOf, (sound_of_reachable reachable).objects_of_ne taken other, queueOf]

/--
Two watchers, the second at a lower address, and a third at the address of the
first one, which was dropped after its `UnWatch`.
-/
theorem reliable_ordered_broadcast_reused :
    ∃ state : State ℕ,
      (system ℕ).Reachable state ∧ state.KeptAlive 1 ∧
        receivedBy 1 state.log = [7] ∧ state.queueOf 1 = [8] ∧
        receivedBy 1 state.log ++ state.queueOf 1 = sentBetween 1 state.log := by
  obtain ⟨state, reachable, found⟩ :=
    TransitionSystem.exists_reachableUnder_of_run (system ℕ) (fun _ _ => True)
      rfl
      [.watch 5, .watch 3, .send 7, .visit, .tryReceive 1, .visit, .finish,
        .unWatch 0, .drop 0, .watch 5, .send 8, .visit, .visit, .finish]
      (fun state =>
        state.sending.isNone && (state.held 1).isSome &&
          decide (receivedBy 1 state.log = [7]) &&
          decide (state.queueOf 1 = [8]))
      (by decide +kernel)
  simp only [Bool.and_eq_true, Option.isNone_iff_eq_none, decide_eq_true_eq]
    at found
  obtain ⟨⟨⟨idle, kept⟩, received⟩, queued⟩ := found
  exact
    ⟨state, reachable, kept, received, queued,
      ((reliable_ordered_broadcast reachable 1).1 kept).2 idle⟩

end State

end AsyncRuntime.Channel
