import AsyncRuntime.Foundation.TransitionSystem
import AsyncRuntime.WorkGroup.Model

/-!
# Setting the runtime up

`Setup` first appends the main work group and the given options to the options
that the runtime knows, and only then looks whether the runtime is set up; if it
is, no executor is built from them.  `Terminate` deletes the executors and forgets
neither the options nor `main_executor`.

So names resolve to groups as long as a runtime that is set up is only given names
that it knows, and `main_executor` is an executor as long as a runtime is not set
up again after it has been terminated.

An object is named by its address, which may be used again once the object has
been deleted.  The nodes that the machine reports and the addresses of the new
executors are part of the action.
-/

namespace AsyncRuntime.Runtime.Setup

open AsyncRuntime.Foundation
open AsyncRuntime.WorkGroup

/-- `MAX_GROUPS_COUNT`. -/
def maxGroupsCount : ℕ := 10

/-- `MAIN_WORK_GROUP`. -/
def mainWorkGroup : String := "main"

/-- The option that every `Setup` appends; both its shares are 1.0. -/
def mainOption : WorkGroupOption where
  name := mainWorkGroup
  maxCpus := fun count => count
  slotConcurrency := 0

/-- What an executor in the map is. -/
inductive Object where
  | cpu (executor : Executor)
  | io

/-- An executor and its address. -/
structure Entry where
  address : ℕ
  object : Object

/-- The fields of `Runtime` that `Setup` and `Terminate` use. -/
structure State where
  workGroupsOption : List WorkGroupOption
  executors : List (ℕ × Entry)
  mainExecutor : Option ℕ
  ioExecutor : Option ℕ
  isSetup : Bool

/-- `Runtime::Runtime`. -/
def State.initial : State where
  workGroupsOption := []
  executors := []
  mainExecutor := none
  ioExecutor := none
  isSetup := false

/-- A NUMA node: its CPUs, and the address of the executor made for it. -/
structure Node where
  cpus : List CpuId
  address : ℕ

/-- A call, with what the machine and the allocator contribute to it. -/
inductive Action where
  | setup (options : List WorkGroupOption) (nodes : List Node) (ioAddress : ℕ)
  | terminate

/-! ## The calls -/

/-- The loop of `SetupWorkGroups`. -/
def appendOptions :
    List WorkGroupOption → List WorkGroupOption →
      List WorkGroupOption × Except String Unit
  | known, [] => (known, .ok ())
  | known, option :: rest =>
      if option.name ≠ mainWorkGroup then appendOptions (known ++ [option]) rest
      else (known, .error ("Work group \"" ++ option.name ++ "\" already exist!"))

/-- `SetupWorkGroups`; what it has appended stays when it throws. -/
def setupWorkGroups (known options : List WorkGroupOption) :
    List WorkGroupOption × Except String Unit :=
  let withMain := known ++ [mainOption]
  if maxGroupsCount < withMain.length then
    (withMain, .error ("Work group size > " ++ toString maxGroupsCount))
  else appendOptions withMain options

/-- `executors.insert`, which keeps an entry that is there. -/
def insert (executors : List (ℕ × Entry)) (key : ℕ) (entry : Entry) :
    List (ℕ × Entry) :=
  if key ∈ executors.map Prod.fst then executors else executors ++ [(key, entry)]

/-- The loop of `CreateDefaultExecutors`. -/
def createExecutors (hardware : ℕ) (index : ℕ) : List Node → State → Option State
  | [], state => some state
  | node :: rest, state =>
      match Executor.create hardware node.cpus state.workGroupsOption with
      | none => none
      | some executor =>
          createExecutors hardware (index + 1) rest
            { state with
              mainExecutor := state.mainExecutor.or (some node.address)
              executors :=
                insert state.executors index ⟨node.address, .cpu executor⟩ }

/-- `CreateDefaultExecutors`. -/
def createDefaultExecutors (hardware : ℕ) (nodes : List Node) (state : State) :
    Option (State × Except String Unit) :=
  (createExecutors hardware 0 nodes state).map fun created =>
    (created,
      if created.mainExecutor = none then .error "main executor not setup"
      else .ok ())

/-- `CreateExecutor<IO::IOExecutor>`, with the hash of the type as its key. -/
def createIo (ioKey ioAddress : ℕ) (state : State) : State :=
  { state with
    executors := insert state.executors ioKey ⟨ioAddress, .io⟩
    ioExecutor := some ioAddress }

/-- `Runtime::Setup`. -/
def setup (hardware ioKey : ℕ) (state : State) (options : List WorkGroupOption)
    (nodes : List Node) (ioAddress : ℕ) : Option (State × Except String Unit) :=
  let known := setupWorkGroups state.workGroupsOption options
  let appended := { state with workGroupsOption := known.1 }
  match known.2 with
  | .error message => some (appended, .error message)
  | .ok () =>
      if state.isSetup then some (appended, .ok ())
      else
        match createDefaultExecutors hardware nodes appended with
        | none => none
        | some (created, .error message) => some (created, .error message)
        | some (created, .ok ()) =>
            some ({ createIo ioKey ioAddress created with isSetup := true }, .ok ())

/-- `Runtime::Terminate`. -/
def terminate (state : State) : State :=
  if state.isSetup then { state with executors := [], isSetup := false } else state

/-- The allocator does not hand out an address that is in use. -/
def Available (state : State) (nodes : List Node) (ioAddress : ℕ) : Prop :=
  (ioAddress :: nodes.map Node.address).Nodup ∧
    ∀ entry ∈ state.executors,
      entry.2.address ∉ ioAddress :: nodes.map Node.address

instance (state : State) (nodes : List Node) (ioAddress : ℕ) :
    Decidable (Available state nodes ioAddress) :=
  inferInstanceAs (Decidable (_ ∧ _))

/-- One call. -/
def next (hardware ioKey : ℕ) (state : State) : Action → Option State
  | .setup options nodes ioAddress =>
      if Available state nodes ioAddress then
        (setup hardware ioKey state options nodes ioAddress).map Prod.fst
      else none
  | .terminate => some (terminate state)

/-- The runtime as a transition system. -/
def system (hardware ioKey : ℕ) : TransitionSystem State Action where
  initial := fun state => state = State.initial
  next := next hardware ioKey

/-- `Runtime::GetWorkGroup`. -/
def getWorkGroup (options : List WorkGroupOption) (name : String) : ℕ :=
  match options.findIdx? fun option => option.name = name with
  | some index => index
  | none => invalidObjectId.toNat

/-! ## What is promised -/

/-- The group was built from the option, as the group with this index. -/
def BuiltFrom (index : ℕ) (option : WorkGroupOption) (group : Group) : Prop :=
  ∃ hardware cpus cpusWg used,
    Group.create hardware cpus index option cpusWg = some (group, used)

/--
Every name is unknown or the index, in every CPU executor, of the group that was
built from the option of that name; `main_executor` is in the map.
-/
structure State.Resolves (state : State) : Prop where
  names :
    ∀ name, getWorkGroup state.workGroupsOption name = invalidObjectId.toNat ∨
      ∀ entry ∈ state.executors, ∀ executor, entry.2.object = .cpu executor →
        ∃ option group,
          option ∈ state.workGroupsOption ∧ option.name = name ∧
            executor.groups[getWorkGroup state.workGroupsOption name]? = some group ∧
            BuiltFrom (getWorkGroup state.workGroupsOption name) option group
  main :
    ∃ entry ∈ state.executors, state.mainExecutor = some entry.2.address

/-- `SetupWorkGroups` throws. -/
def Refused (state : State) (options : List WorkGroupOption) : Prop :=
  maxGroupsCount ≤ state.workGroupsOption.length ∨
    ∃ option ∈ options, option.name = mainWorkGroup

/-- All names that `SetupWorkGroups` appends are known. -/
def GivesKnown (state : State) (options : List WorkGroupOption) : Prop :=
  maxGroupsCount ≤ state.workGroupsOption.length ∨
    ∀ option ∈ options.takeWhile (·.name ≠ mainWorkGroup),
      ∃ known ∈ state.workGroupsOption, known.name = option.name

/--
A runtime that is set up is only given names that it knows; a runtime that is not
set up has no main executor yet, or `Setup` throws before it builds executors.
-/
def orderly (state : State) : Action → Prop
  | .setup options _ _ =>
      if state.isSetup then GivesKnown state options
      else state.mainExecutor = none ∨ Refused state options
  | .terminate => True

instance (state : State) (options : List WorkGroupOption) :
    Decidable (Refused state options) :=
  inferInstanceAs (Decidable (_ ∨ _))

instance (state : State) (options : List WorkGroupOption) :
    Decidable (GivesKnown state options) :=
  inferInstanceAs (Decidable (_ ∨ _))

instance (state : State) (action : Action) : Decidable (orderly state action) :=
  match action with
  | .terminate => inferInstanceAs (Decidable True)
  | .setup options _ _ =>
      inferInstanceAs
        (Decidable
          (if state.isSetup then GivesKnown state options
            else state.mainExecutor = none ∨ Refused state options))

/-! ## What is appended -/

theorem appendOptions_fst (known options : List WorkGroupOption) :
    (appendOptions known options).1 =
      known ++ options.takeWhile (·.name ≠ mainWorkGroup) := by
  induction options generalizing known with
  | nil => exact (List.append_nil known).symm
  | cons option rest inductionHypothesis =>
      rw [appendOptions]
      by_cases own : option.name ≠ mainWorkGroup
      · rw [if_pos own, inductionHypothesis, List.append_assoc,
          List.takeWhile_cons_of_pos (by simpa using own)]
        rfl
      · rw [if_neg own, List.takeWhile_cons_of_neg (by simpa using own),
          List.append_nil]

theorem name_ne_of_appendOptions {known options : List WorkGroupOption}
    (accepted : (appendOptions known options).2 = .ok ()) :
    ∀ option ∈ options, option.name ≠ mainWorkGroup := by
  induction options generalizing known with
  | nil => exact fun option member => absurd member List.not_mem_nil
  | cons option rest inductionHypothesis =>
      rw [appendOptions] at accepted
      split at accepted
      · rename_i own
        intro other member
        rcases List.mem_cons.mp member with rfl | later
        · exact own
        · exact inductionHypothesis accepted other later
      · cases accepted

theorem exists_main_of_appendOptions {known options : List WorkGroupOption}
    {message : String} (thrown : (appendOptions known options).2 = .error message) :
    ∃ option ∈ options, option.name = mainWorkGroup := by
  induction options generalizing known with
  | nil => cases thrown
  | cons option rest inductionHypothesis =>
      rw [appendOptions] at thrown
      split at thrown
      · rcases inductionHypothesis thrown with ⟨other, member, isMain⟩
        exact ⟨other, List.mem_cons_of_mem option member, isMain⟩
      · rename_i isMain
        exact ⟨option, List.mem_cons_self, not_not.mp isMain⟩

/-- The options that `SetupWorkGroups` leaves behind. -/
theorem setupWorkGroups_fst (known options : List WorkGroupOption) :
    (setupWorkGroups known options).1 =
      known ++ mainOption ::
        (if maxGroupsCount ≤ known.length then []
          else options.takeWhile (·.name ≠ mainWorkGroup)) := by
  rw [setupWorkGroups]
  simp only [List.length_append, List.length_singleton]
  by_cases full : maxGroupsCount ≤ known.length
  · rw [if_pos (Nat.lt_succ_of_le full), if_pos full]
  · rw [if_neg (by omega), if_neg full, appendOptions_fst, List.append_assoc]
    rfl

theorem not_refused {state : State} {options : List WorkGroupOption}
    (accepted : (setupWorkGroups state.workGroupsOption options).2 = .ok ()) :
    ¬ Refused state options := by
  rw [setupWorkGroups] at accepted
  simp only [List.length_append, List.length_singleton] at accepted
  split at accepted
  · cases accepted
  · rintro (full | ⟨option, member, isMain⟩)
    · omega
    · exact name_ne_of_appendOptions accepted option member isMain

theorem refused_of_error {state : State} {options : List WorkGroupOption}
    {message : String}
    (thrown :
      (setupWorkGroups state.workGroupsOption options).2 = .error message) :
    Refused state options := by
  rw [setupWorkGroups] at thrown
  simp only [List.length_append, List.length_singleton] at thrown
  split at thrown
  · exact .inl (by omega)
  · exact .inr (exists_main_of_appendOptions thrown)

/-! ## The groups of an executor -/

theorem createGroups_builtFrom {hardware : ℕ} {cpus : List CpuId}
    {options : List WorkGroupOption} {cpusWg used : ℕ → ℕ}
    {groups all : List Group}
    (created : createGroups hardware cpus options cpusWg groups = some (all, used)) :
    groups <+: all ∧
      ∀ index option, options[index]? = some option →
        ∃ group, all[groups.length + index]? = some group ∧
          BuiltFrom (groups.length + index) option group := by
  induction options generalizing cpusWg groups with
  | nil =>
      cases created
      exact ⟨List.prefix_refl _, fun index option found => by simp at found⟩
  | cons first rest inductionHypothesis =>
      rw [createGroups] at created
      split at created
      · cases created
      · rename_i group taken group_eq
        rcases inductionHypothesis created with ⟨longer, later⟩
        refine ⟨(List.prefix_append groups [group]).trans longer, ?_⟩
        intro index option found
        cases index with
        | zero =>
            cases found
            refine ⟨group, ?_, hardware, cpus, cpusWg, taken, group_eq⟩
            rcases longer with ⟨tail, all_eq⟩
            rw [← all_eq, Nat.add_zero, List.append_assoc,
              List.getElem?_append_right (Nat.le_refl _), Nat.sub_self]
            rfl
        | succ index =>
            rcases later index option found with ⟨built, builtAt, from_option⟩
            rw [List.length_append, List.length_singleton, Nat.add_assoc,
              Nat.add_comm 1 index] at builtAt from_option
            exact ⟨built, builtAt, from_option⟩

theorem create_builtFrom {hardware : ℕ} {cpus : List CpuId}
    {options : List WorkGroupOption} {executor : Executor}
    (created : Executor.create hardware cpus options = some executor)
    {index : ℕ} {option : WorkGroupOption} (found : options[index]? = some option) :
    ∃ group, executor.groups[index]? = some group ∧
      BuiltFrom index option group := by
  rw [Executor.create] at created
  split at created
  · cases created
  · cases created
  · rename_i first rest used groups_eq
    cases created
    rcases (createGroups_builtFrom groups_eq).2 index option found with
      ⟨group, groupAt, built⟩
    rw [List.length_nil, Nat.zero_add] at groupAt built
    exact ⟨group, groupAt, built⟩

/-! ## Building executors -/

/-- The loop of `CreateDefaultExecutors` has built executors up to an index. -/
structure Building (hardware : ℕ) (options : List WorkGroupOption) (index : ℕ)
    (state : State) : Prop where
  options_eq : state.workGroupsOption = options
  down : state.isSetup = false
  keys : ∀ entry ∈ state.executors, entry.1 < index
  built :
    ∀ entry ∈ state.executors, ∀ executor, entry.2.object = .cpu executor →
      ∃ cpus, Executor.create hardware cpus options = some executor
  empty : state.mainExecutor = none → state.executors = []
  main :
    ∀ address, state.mainExecutor = some address →
      ∃ entry ∈ state.executors, entry.2.address = address

theorem mem_insert {executors : List (ℕ × Entry)} {key : ℕ} {entry : Entry}
    {other : ℕ × Entry} (member : other ∈ insert executors key entry) :
    other ∈ executors ∨ other = (key, entry) := by
  rw [insert] at member
  split at member
  · exact .inl member
  · rw [List.mem_append, List.mem_singleton] at member
    exact member

theorem mem_insert_of_mem {executors : List (ℕ × Entry)} (key : ℕ) (entry : Entry)
    {other : ℕ × Entry} (member : other ∈ executors) :
    other ∈ insert executors key entry := by
  rw [insert]
  split
  · exact member
  · exact List.mem_append_left _ member

/-- One more executor; its key is new. -/
theorem Building.step {hardware index : ℕ} {options : List WorkGroupOption}
    {state : State} (building : Building hardware options index state)
    {node : Node} {executor : Executor}
    (created : Executor.create hardware node.cpus options = some executor) :
    Building hardware options (index + 1)
      { state with
        mainExecutor := state.mainExecutor.or (some node.address)
        executors := insert state.executors index ⟨node.address, .cpu executor⟩ } := by
  have fresh : index ∉ state.executors.map Prod.fst := by
    intro member
    rcases List.mem_map.mp member with ⟨entry, present, key_eq⟩
    have below := building.keys entry present
    omega
  constructor
  case options_eq => exact building.options_eq
  case down => exact building.down
  case keys =>
    intro entry member
    rcases mem_insert member with old | rfl
    · exact Nat.lt_succ_of_lt (building.keys entry old)
    · exact Nat.lt_succ_self index
  case built =>
    intro entry member other object_eq
    rcases mem_insert member with old | rfl
    · exact building.built entry old other object_eq
    · cases object_eq
      exact ⟨node.cpus, created⟩
  case empty =>
    intro noMain
    rw [Option.or_eq_none_iff] at noMain
    cases noMain.2
  case main =>
    intro address main_eq
    cases chosen : state.mainExecutor with
    | some first =>
        rw [chosen] at main_eq
        cases main_eq
        rcases building.main _ chosen with ⟨entry, member, address_eq⟩
        exact ⟨entry, mem_insert_of_mem _ _ member, address_eq⟩
    | none =>
        rw [chosen] at main_eq
        cases main_eq
        refine ⟨(index, ⟨node.address, .cpu executor⟩), ?_, rfl⟩
        rw [insert, if_neg fresh]
        exact List.mem_append_right _ (List.mem_singleton_self _)

theorem Building.createExecutors {hardware index : ℕ}
    {options : List WorkGroupOption} {nodes : List Node} {state created : State}
    (building : Building hardware options index state)
    (looped : createExecutors hardware index nodes state = some created) :
    Building hardware options (index + nodes.length) created := by
  induction nodes generalizing index state with
  | nil =>
      cases looped
      exact building
  | cons node rest inductionHypothesis =>
      rw [Setup.createExecutors] at looped
      split at looped
      · cases looped
      · rename_i executor executor_eq
        rw [building.options_eq] at executor_eq
        have done := inductionHypothesis (building.step executor_eq) looped
        rw [Nat.add_assoc, Nat.add_comm 1] at done
        exact done

/-! ## The invariant -/

/-- The executors of a runtime, and the options that they were built from. -/
structure State.SetUp (hardware : ℕ) (state : State)
    (used : List WorkGroupOption) : Prop where
  begins : used <+: state.workGroupsOption
  hasMain : mainOption ∈ used
  named :
    ∀ option ∈ state.workGroupsOption, ∃ known ∈ used, known.name = option.name
  built :
    ∀ entry ∈ state.executors, ∀ executor, entry.2.object = .cpu executor →
      ∃ cpus, Executor.create hardware cpus used = some executor
  main :
    ∃ entry ∈ state.executors, state.mainExecutor = some entry.2.address

/-- A runtime that is not set up has no executors. -/
structure State.Coherent (hardware : ℕ) (state : State) : Prop where
  down : state.isSetup = false → state.executors = []
  up : state.isSetup = true → ∃ used, state.SetUp hardware used

/-- A name is found among the options from which the groups were built. -/
theorem State.SetUp.resolves {hardware : ℕ} {state : State}
    {used : List WorkGroupOption} (setUp : state.SetUp hardware used) :
    state.Resolves := by
  refine ⟨?_, setUp.main⟩
  intro name
  rcases setUp.begins with ⟨tail, options_eq⟩
  cases found : used.findIdx? fun option => option.name = name with
  | none =>
      left
      have absent :
          (state.workGroupsOption.findIdx? fun option => option.name = name) =
            none := by
        rw [List.findIdx?_eq_none_iff] at found ⊢
        intro option member
        rcases setUp.named option member with ⟨known, knownMember, name_eq⟩
        rw [← name_eq]
        exact found known knownMember
      rw [getWorkGroup, absent]
  | some index =>
      right
      have resolved : getWorkGroup state.workGroupsOption name = index := by
        rw [getWorkGroup, ← options_eq, List.findIdx?_append, found]
        rfl
      intro entry member executor object_eq
      rcases setUp.built entry member executor object_eq with ⟨cpus, created⟩
      rcases List.findIdx?_eq_some_iff_getElem.mp found with ⟨bound, named, -⟩
      have optionAt := List.getElem?_eq_getElem bound
      rcases create_builtFrom created optionAt with ⟨group, groupAt, built⟩
      rw [resolved]
      refine ⟨used[index], group, ?_, of_decide_eq_true named, groupAt, built⟩
      rw [← options_eq]
      exact List.mem_append_left tail (List.getElem_mem bound)

section

variable {hardware ioKey ioAddress : ℕ} {state target : State}
  {options : List WorkGroupOption} {nodes : List Node}

/-- What `Setup` does. -/
theorem setup_cases
    (done : (setup hardware ioKey state options nodes ioAddress).map Prod.fst =
      some target) :
    (Refused state options ∨ state.isSetup = true) ∧
        target =
          { state with
            workGroupsOption :=
              (setupWorkGroups state.workGroupsOption options).1 } ∨
      ¬ Refused state options ∧ state.isSetup = false ∧
        ∃ created,
          createExecutors hardware 0 nodes
              { state with
                workGroupsOption :=
                  (setupWorkGroups state.workGroupsOption options).1 } =
            some created ∧
          (created.mainExecutor = none ∧ target = created ∨
            created.mainExecutor ≠ none ∧
              target =
                { createIo ioKey ioAddress created with isSetup := true }) := by
  rw [setup] at done
  simp only at done
  split at done
  · rename_i message thrown
    cases done
    exact .inl ⟨.inl (refused_of_error thrown), rfl⟩
  · rename_i accepted
    split at done
    · rename_i running
      cases done
      exact .inl ⟨.inr running, rfl⟩
    · rename_i stopped
      refine .inr ⟨not_refused accepted, Bool.eq_false_iff.mpr stopped, ?_⟩
      rw [createDefaultExecutors] at done
      split at done
      · cases done
      · rename_i created message created_eq
        cases done
        simp only [Option.map_eq_some_iff, Prod.mk.injEq] at created_eq
        rcases created_eq with ⟨reached, loop_eq, rfl, thrown⟩
        refine ⟨reached, loop_eq, .inl ⟨?_, rfl⟩⟩
        split at thrown
        · assumption
        · cases thrown
      · rename_i created created_eq
        cases done
        simp only [Option.map_eq_some_iff, Prod.mk.injEq] at created_eq
        rcases created_eq with ⟨reached, loop_eq, rfl, finished⟩
        refine ⟨reached, loop_eq, .inr ⟨?_, rfl⟩⟩
        split at finished
        · cases finished
        · assumption

theorem mainOption_mem_setupWorkGroups (known options : List WorkGroupOption) :
    mainOption ∈ (setupWorkGroups known options).1 := by
  rw [setupWorkGroups_fst]
  exact List.mem_append_right _ List.mem_cons_self

/-- Names that are known resolve as before. -/
theorem State.SetUp.append {used : List WorkGroupOption}
    (setUp : state.SetUp hardware used)
    (known : GivesKnown state options) :
    State.SetUp hardware
      { state with
        workGroupsOption := (setupWorkGroups state.workGroupsOption options).1 }
      used := by
  refine ⟨?_, setUp.hasMain, ?_, setUp.built, setUp.main⟩
  · rw [setupWorkGroups_fst]
    exact setUp.begins.trans (List.prefix_append _ _)
  · intro option member
    rw [setupWorkGroups_fst, List.mem_append, List.mem_cons] at member
    rcases member with old | rfl | given
    · exact setUp.named option old
    · exact ⟨mainOption, setUp.hasMain, rfl⟩
    · split at given
      · exact absurd given List.not_mem_nil
      · rename_i room
        rcases known with full | known
        · exact absurd full room
        · rcases known option given with ⟨earlier, earlierMember, name_eq⟩
          rcases setUp.named earlier earlierMember with
            ⟨first, firstMember, first_eq⟩
          exact ⟨first, firstMember, first_eq.trans name_eq⟩

/-- The first executors of a runtime. -/
theorem building_start (down : state.isSetup = false)
    (noExecutors : state.executors = []) (noMain : state.mainExecutor = none) :
    Building hardware state.workGroupsOption 0 state := by
  refine ⟨rfl, down, ?_, ?_, fun _ => noExecutors, ?_⟩
  · intro entry member
    rw [noExecutors] at member
    exact absurd member List.not_mem_nil
  · intro entry member
    rw [noExecutors] at member
    exact absurd member List.not_mem_nil
  · intro address main_eq
    rw [noMain] at main_eq
    cases main_eq

/-- The executors are built and the runtime is set up. -/
theorem Building.setUp {created : State} {index : ℕ}
    (building : Building hardware options index created)
    (hasMain : mainOption ∈ options) (chosen : created.mainExecutor ≠ none) :
    State.SetUp hardware { createIo ioKey ioAddress created with isSetup := true }
      options := by
  refine ⟨?_, hasMain, ?_, ?_, ?_⟩
  · rw [← building.options_eq]
    exact List.prefix_refl _
  · intro option member
    refine ⟨option, ?_, rfl⟩
    rw [← building.options_eq]
    exact member
  · intro entry member executor object_eq
    rcases mem_insert member with old | rfl
    · exact building.built entry old executor object_eq
    · cases object_eq
  · rcases Option.ne_none_iff_exists'.mp chosen with ⟨address, main_eq⟩
    rcases building.main address main_eq with ⟨entry, member, address_eq⟩
    refine ⟨entry, mem_insert_of_mem _ _ member, ?_⟩
    rw [address_eq]
    exact main_eq

/-- `Setup` and `Terminate` keep the runtime coherent. -/
theorem State.Coherent.step {action : Action} (coherent : state.Coherent hardware)
    (allowed : orderly state action)
    (taken : next hardware ioKey state action = some target) :
    target.Coherent hardware := by
  cases action with
  | terminate =>
      simp only [next, terminate, Option.some.injEq] at taken
      subst taken
      split
      · exact ⟨fun _ => rfl, fun up => absurd up Bool.false_ne_true⟩
      · exact coherent
  | setup options nodes ioAddress =>
      rw [next] at taken
      split at taken
      · rcases setup_cases taken with
          ⟨-, rfl⟩ | ⟨accepted, down, created, loop_eq, outcome⟩
        · -- the options are appended, and nothing is built
          refine ⟨coherent.down, fun up => ?_⟩
          rcases coherent.up up with ⟨used, setUp⟩
          rw [orderly, if_pos up] at allowed
          exact ⟨used, setUp.append allowed⟩
        · rw [orderly, if_neg (by rw [down]; exact Bool.false_ne_true)] at allowed
          have noMain : state.mainExecutor = none := by
            rcases allowed with noMain | refused
            · exact noMain
            · exact absurd refused accepted
          let appended : State :=
            { state with
              workGroupsOption :=
                (setupWorkGroups state.workGroupsOption options).1 }
          have start : Building hardware appended.workGroupsOption 0 appended :=
            building_start down (coherent.down down) noMain
          have building := start.createExecutors loop_eq
          rcases outcome with ⟨unset, rfl⟩ | ⟨chosen, rfl⟩
          · refine ⟨fun _ => building.empty unset, fun up => ?_⟩
            rw [building.down] at up
            cases up
          · refine ⟨fun down => ?_, fun _ => ?_⟩
            · cases down
            · exact ⟨_, building.setUp (mainOption_mem_setupWorkGroups _ _) chosen⟩
      · cases taken

end

/-! ## Every run -/

theorem coherent_of_reachable {hardware ioKey : ℕ} {state : State}
    (reachable : (system hardware ioKey).ReachableUnder orderly state) :
    state.Coherent hardware := by
  apply reachable.invariant
  · rintro state rfl
    exact ⟨fun _ => rfl, fun up => absurd up Bool.false_ne_true⟩
  · intro source action target _ allowed taken coherent
    exact coherent.step allowed taken

/--
For every sequence of orderly calls: in a runtime that is set up every name is
unknown or the index of its group in every CPU executor, and the main executor is
one of the executors.
-/
theorem names_resolve {hardware ioKey : ℕ} {state : State}
    (reachable : (system hardware ioKey).ReachableUnder orderly state)
    (up : state.isSetup = true) : state.Resolves := by
  rcases (coherent_of_reachable reachable).up up with ⟨used, setUp⟩
  exact setUp.resolves

/-- A node with one CPU. -/
def loneNode (address : ℕ) : Node :=
  ⟨[0#64], address⟩

/-- Two setups with the same name, and a refused one. -/
theorem names_resolve_repeated :
    ∃ state, (system 1 99).ReachableUnder orderly state ∧ state.isSetup = true ∧
      state.Resolves := by
  rcases TransitionSystem.exists_reachableUnder_of_run (system 1 99) orderly rfl
      [.setup [⟨"io", fun _ => 1, 1⟩] [loneNode 7] 8,
        .setup [⟨"io", fun _ => 1, 1⟩] [] 9, .setup [mainOption] [] 9]
      State.isSetup (by rfl) with
    ⟨state, reachable, up⟩
  exact ⟨state, reachable, up, names_resolve reachable up⟩

/-- Some CPU executor has no group at the index of the name. -/
def State.losesName (state : State) (name : String) : Bool :=
  state.executors.any fun entry =>
    match entry.2.object with
    | .cpu executor =>
        executor.groups.length ≤ getWorkGroup state.workGroupsOption name &&
          getWorkGroup state.workGroupsOption name != invalidObjectId.toNat
    | .io => false

/-- `main_executor` is not in the map. -/
def State.losesMain (state : State) : Bool :=
  state.executors.all fun entry => state.mainExecutor != some entry.2.address

/--
The option of a second `Setup` has no group, and after `Terminate` a new `Setup`
leaves `main_executor` at the address of a deleted executor.
-/
theorem setup_again_breaks :
    (¬ ∀ state, (system 1 99).Reachable state → state.isSetup = true →
        ∀ name, getWorkGroup state.workGroupsOption name = invalidObjectId.toNat ∨
          ∀ entry ∈ state.executors, ∀ executor, entry.2.object = .cpu executor →
            getWorkGroup state.workGroupsOption name < executor.groups.length) ∧
      ¬ ∀ state, (system 1 99).Reachable state → state.isSetup = true →
        ∃ entry ∈ state.executors, state.mainExecutor = some entry.2.address := by
  constructor
  · intro claim
    rcases TransitionSystem.exists_reachableUnder_of_run (system 1 99)
        (fun _ _ => True) rfl
        [.setup [] [loneNode 7] 8, .setup [⟨"late", fun _ => 1, 1⟩] [] 9]
        (fun state => state.isSetup && state.losesName "late") (by rfl) with
      ⟨state, reachable, lost⟩
    rw [Bool.and_eq_true, State.losesName, List.any_eq_true] at lost
    rcases lost with ⟨up, entry, member, outside⟩
    split at outside
    · rename_i executor object_eq
      rw [Bool.and_eq_true, decide_eq_true_eq, bne_iff_ne] at outside
      rcases claim state reachable up "late" with unknown | inside
      · exact outside.2 unknown
      · exact absurd (inside entry member executor object_eq) (by omega)
    · cases outside
  · intro claim
    rcases TransitionSystem.exists_reachableUnder_of_run (system 1 99)
        (fun _ _ => True) rfl
        [.setup [] [loneNode 7] 8, .terminate, .setup [] [loneNode 9] 10]
        (fun state => state.isSetup && state.losesMain) (by rfl) with
      ⟨state, reachable, lost⟩
    rw [Bool.and_eq_true, State.losesMain, List.all_eq_true] at lost
    rcases claim state reachable lost.1 with ⟨entry, member, main_eq⟩
    have apart := lost.2 entry member
    rw [bne_iff_ne] at apart
    exact apart main_eq

end AsyncRuntime.Runtime.Setup
