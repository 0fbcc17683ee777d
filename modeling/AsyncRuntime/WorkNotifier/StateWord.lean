import Mathlib.Data.BitVec

/-!
# The packed state word of `WorkNotifier`

`_state` packs three fields into 64 bits: the low 16 bits are the top of the
stack of committed waiters, the next 16 bits count the waiters in pre-wait, and
the high 32 bits are the modification epoch.  The operations update all three
at once by 64-bit additions and subtractions that wrap around.

The fields are read here as natural numbers by division and remainder.  Each
masked expression of the source is identified with its fields, and each new
word the source computes gets one lemma stating what happens to the fields.
-/

namespace AsyncRuntime.WorkNotifier

/-- `uint64_t`. -/
abbrev Word := BitVec 64

def kStackBits : ℕ := 16

def kStackMask : Word := (1 <<< kStackBits) - 1

def kWaiterBits : ℕ := 16

def kWaiterShift : ℕ := 16

def kWaiterMask : Word := ((1 <<< kWaiterBits) - 1) <<< kWaiterShift

def kWaiterInc : Word := 1 <<< kWaiterBits

def kEpochBits : ℕ := 32

def kEpochShift : ℕ := 32

def kEpochMask : Word := ((1 <<< kEpochBits) - 1) <<< kEpochShift

def kEpochInc : Word := 1 <<< kEpochShift

/-! ## The fields -/

/-- The modification epoch. -/
def epochField (word : Word) : ℕ :=
  word.toNat / 2 ^ 32

/-- The number of waiters in pre-wait. -/
def waiterField (word : Word) : ℕ :=
  word.toNat / 65536 % 65536

/-- The raw stack field; `65535` marks the empty stack. -/
def stackField (word : Word) : ℕ :=
  word.toNat % 65536

/-- The waiter on top of the stack, if any. -/
def stackTop (word : Word) : Option ℕ :=
  if stackField word = 65535 then none else some (stackField word)

theorem epochField_lt (word : Word) : epochField word < 2 ^ 32 := by
  have bounded := word.isLt
  unfold epochField
  omega

theorem waiterField_lt (word : Word) : waiterField word < 65536 :=
  Nat.mod_lt _ (by decide)

theorem stackField_lt (word : Word) : stackField word < 65536 :=
  Nat.mod_lt _ (by decide)

/-- A word is its three fields. -/
theorem toNat_eq_fields (word : Word) :
    word.toNat =
      epochField word * 2 ^ 32 + waiterField word * 65536 + stackField word := by
  unfold epochField waiterField stackField
  omega

/-- Reading the fields back from a number put together from fields. -/
theorem fields_of_toNat {word : Word} {epoch waiters stack : ℕ}
    (packed : word.toNat = epoch * 2 ^ 32 + waiters * 65536 + stack)
    (waiters_lt : waiters < 65536) (stack_lt : stack < 65536) :
    epochField word = epoch ∧ waiterField word = waiters ∧
      stackField word = stack := by
  unfold epochField waiterField stackField
  omega

/-! ## Masked expressions -/

/-- Masking with a block of ones keeps exactly the block. -/
theorem land_block (value shift width : ℕ) :
    value &&& ((2 ^ width - 1) * 2 ^ shift) =
      value / 2 ^ shift % 2 ^ width * 2 ^ shift := by
  rw [← Nat.shiftLeft_eq, ← Nat.shiftLeft_eq, ← Nat.shiftRight_eq_div_pow,
    ← Nat.and_two_pow_sub_one_eq_mod]
  apply Nat.eq_of_testBit_eq
  intro position
  simp only [Nat.testBit_and, Nat.testBit_shiftLeft, Nat.testBit_shiftRight]
  by_cases inside : shift ≤ position
  · simp [inside]
  · simp [inside]

theorem toNat_and_stackMask (word : Word) :
    (word &&& kStackMask).toNat = stackField word := by
  rw [BitVec.toNat_and]
  exact Nat.and_two_pow_sub_one_eq_mod word.toNat 16

theorem toNat_and_waiterMask (word : Word) :
    (word &&& kWaiterMask).toNat = waiterField word * 65536 := by
  rw [BitVec.toNat_and]
  exact land_block word.toNat 16 16

theorem toNat_and_epochMask (word : Word) :
    (word &&& kEpochMask).toNat = epochField word * 2 ^ 32 := by
  have bounded := word.isLt
  rw [BitVec.toNat_and]
  refine (land_block word.toNat 32 32).trans ?_
  unfold epochField
  omega

theorem toNat_waiters (word : Word) :
    ((word &&& kWaiterMask) >>> kWaiterShift).toNat = waiterField word := by
  rw [BitVec.toNat_ushiftRight, toNat_and_waiterMask, Nat.shiftRight_eq_div_pow]
  exact Nat.mul_div_cancel _ (by decide)

/-- `(state & kStackMask) == kStackMask`. -/
theorem and_stackMask_eq_iff (word : Word) :
    word &&& kStackMask = kStackMask ↔ stackTop word = none := by
  rw [← BitVec.toNat_inj, toNat_and_stackMask]
  have mask : kStackMask.toNat = 65535 := rfl
  simp [stackTop, mask]

/-- `(state & kWaiterMask) == 0`. -/
theorem and_waiterMask_eq_iff (word : Word) :
    word &&& kWaiterMask = 0 ↔ waiterField word = 0 := by
  rw [← BitVec.toNat_inj, toNat_and_waiterMask]
  simp

/-! ## The words the operations install -/

/-- `_state.fetch_add(kWaiterInc)`. -/
theorem fields_add_waiterInc {word : Word} (room : waiterField word < 65535) :
    epochField (word + kWaiterInc) = epochField word ∧
      waiterField (word + kWaiterInc) = waiterField word + 1 ∧
      stackField (word + kWaiterInc) = stackField word := by
  have epoch_lt := epochField_lt word
  have stack_lt := stackField_lt word
  have split := toNat_eq_fields word
  have increment : kWaiterInc.toNat = 65536 := rfl
  apply fields_of_toNat _ (by omega) stack_lt
  rw [BitVec.toNat_add]
  omega

/-- `state - kWaiterInc + kEpochInc`. -/
def leavePreWait (state : Word) : Word :=
  state - kWaiterInc + kEpochInc

/-- `notify` writes the same word with the terms the other way round. -/
theorem add_sub_eq_leavePreWait (state : Word) :
    state + kEpochInc - kWaiterInc = leavePreWait state := by
  rw [leavePreWait, BitVec.sub_eq_add_neg, BitVec.sub_eq_add_neg,
    BitVec.add_assoc, BitVec.add_comm kEpochInc, ← BitVec.add_assoc]

theorem fields_leavePreWait {word : Word} (nonempty : waiterField word ≠ 0) :
    epochField (leavePreWait word) = (epochField word + 1) % 2 ^ 32 ∧
      waiterField (leavePreWait word) = waiterField word - 1 ∧
      stackField (leavePreWait word) = stackField word := by
  have epoch_lt := epochField_lt word
  have waiter_lt := waiterField_lt word
  have stack_lt := stackField_lt word
  have split := toNat_eq_fields word
  have waiterInc : kWaiterInc.toNat = 65536 := rfl
  have epochInc : kEpochInc.toNat = 2 ^ 32 := rfl
  apply fields_of_toNat _ (by omega) stack_lt
  rw [leavePreWait, BitVec.toNat_add, BitVec.toNat_sub]
  omega

/-- `(newstate & ~kStackMask) | index`. -/
def withStack (state : Word) (index : ℕ) : Word :=
  (state &&& ~~~kStackMask) ||| BitVec.ofNat 64 index

theorem fields_withStack (word : Word) {index : ℕ} (index_lt : index < 65536) :
    epochField (withStack word index) = epochField word ∧
      waiterField (withStack word index) = waiterField word ∧
      stackField (withStack word index) = index := by
  have bounded := word.isLt
  have waiter_lt := waiterField_lt word
  have split := toNat_eq_fields word
  have cleared :
      (word &&& ~~~kStackMask).toNat = word.toNat / 65536 * 65536 := by
    rw [BitVec.toNat_and]
    refine (land_block word.toNat 16 48).trans ?_
    omega
  have merged := Nat.two_pow_add_eq_or_of_lt (i := 16) index_lt (word.toNat / 65536)
  have index_eq : (BitVec.ofNat 64 index).toNat = index := by
    rw [BitVec.toNat_ofNat]
    exact Nat.mod_eq_of_lt (by omega)
  apply fields_of_toNat _ waiter_lt index_lt
  rw [withStack, BitVec.toNat_or, cleared, index_eq, Nat.mul_comm, ← merged]
  unfold epochField waiterField
  omega

/-- `(state & kEpochMask) + (kEpochInc * waiters) + kStackMask`. -/
def releaseAll (state : Word) : Word :=
  (state &&& kEpochMask) +
      kEpochInc * ((state &&& kWaiterMask) >>> kWaiterShift) +
    kStackMask

theorem fields_releaseAll (word : Word) :
    epochField (releaseAll word) =
        (epochField word + waiterField word) % 2 ^ 32 ∧
      waiterField (releaseAll word) = 0 ∧
      stackTop (releaseAll word) = none := by
  have epoch_lt := epochField_lt word
  have waiter_lt := waiterField_lt word
  have epochInc : kEpochInc.toNat = 2 ^ 32 := rfl
  have mask : kStackMask.toNat = 65535 := rfl
  have fields :
      epochField (releaseAll word) =
          (epochField word + waiterField word) % 2 ^ 32 ∧
        waiterField (releaseAll word) = 0 ∧
        stackField (releaseAll word) = 65535 := by
    apply fields_of_toNat _ (by decide) (by decide)
    rw [releaseAll, BitVec.toNat_add, BitVec.toNat_add, BitVec.toNat_mul,
      toNat_and_epochMask, toNat_waiters, epochInc, mask]
    omega
  exact ⟨fields.1, fields.2.1, by simp [stackTop, fields.2.2]⟩

/-- The index of a `Waiter *`, with `kStackMask` for `nullptr`. -/
def linkIndex : Option ℕ → Word
  | none => kStackMask
  | some index => BitVec.ofNat 64 index

/-- `(state & kEpochMask) + next`. -/
def popStack (state : Word) (next : Option ℕ) : Word :=
  (state &&& kEpochMask) + linkIndex next

theorem fields_popStack (word : Word) {next : Option ℕ}
    (next_lt : ∀ index, next = some index → index < 65535) :
    epochField (popStack word next) = epochField word ∧
      waiterField (popStack word next) = 0 ∧
      stackTop (popStack word next) = next := by
  have epoch_lt := epochField_lt word
  have fields : ∀ stack : ℕ, stack < 65536 → (linkIndex next).toNat = stack →
      epochField (popStack word next) = epochField word ∧
        waiterField (popStack word next) = 0 ∧
        stackField (popStack word next) = stack := by
    intro stack stack_lt link
    apply fields_of_toNat _ (by decide) stack_lt
    rw [popStack, BitVec.toNat_add, toNat_and_epochMask, link]
    omega
  cases next with
  | none =>
      have empty := fields 65535 (by decide) rfl
      exact ⟨empty.1, empty.2.1, by simp [stackTop, empty.2.2]⟩
  | some index =>
      have index_lt := next_lt index rfl
      have linked : (linkIndex (some index)).toNat = index := by
        rw [linkIndex, BitVec.toNat_ofNat]
        exact Nat.mod_eq_of_lt (by omega)
      have top := fields index (by omega) linked
      refine ⟨top.1, top.2.1, ?_⟩
      rw [stackTop, top.2.2, if_neg (by omega)]

-- From here on the words are known by their fields only.
attribute [irreducible] leavePreWait withStack releaseAll popStack

/-! ## Tickets -/

/--
The modification epoch of a waiter, computed from the word its `prepare_wait`
fetched: the epoch field plus the number of waiters in front of it.
-/
def modificationEpoch (epoch : Word) : Word :=
  (epoch &&& kEpochMask) +
    (((epoch &&& kWaiterMask) >>> kWaiterShift) <<< kEpochShift)

theorem toNat_modificationEpoch (word : Word) :
    (modificationEpoch word).toNat =
      (epochField word + waiterField word) % 2 ^ 32 * 2 ^ 32 := by
  have epoch_lt := epochField_lt word
  have waiter_lt := waiterField_lt word
  rw [modificationEpoch, BitVec.toNat_add, BitVec.toNat_shiftLeft,
    toNat_and_epochMask, toNat_waiters, Nat.shiftLeft_eq]
  have shift : 2 ^ kEpochShift = 2 ^ 32 := rfl
  rw [shift]
  omega

theorem epochField_modificationEpoch (word : Word) :
    epochField (modificationEpoch word) =
      (epochField word + waiterField word) % 2 ^ 32 := by
  have shifted := toNat_modificationEpoch word
  rw [epochField, shifted]
  exact Nat.mul_div_cancel _ (by decide)

/-- `int64_t((state & kEpochMask) - epoch)`. -/
def epochDistance (state epoch : Word) : ℤ :=
  ((state &&& kEpochMask) - modificationEpoch epoch).toInt

/-- The epochs of a state word and of a ticket agree modulo `2 ^ 32`. -/
theorem epochDistance_eq_zero_iff (state epoch : Word) :
    epochDistance state epoch = 0 ↔
      epochField state = (epochField epoch + waiterField epoch) % 2 ^ 32 := by
  have state_lt := epochField_lt state
  rw [epochDistance, BitVec.toInt_eq_toNat_cond, BitVec.toNat_sub,
    toNat_and_epochMask, toNat_modificationEpoch]
  constructor
  · intro zero
    split at zero <;> omega
  · intro same
    split <;> omega

/--
A ticket at most `2 ^ 31` epochs ahead of the state is not behind it: the
signed comparison cannot report it as notified.
-/
theorem epochDistance_nonpos {state epoch : Word} (ahead : ℕ)
    (ahead_le : ahead ≤ 2 ^ 31)
    (ticket :
      (epochField epoch + waiterField epoch) % 2 ^ 32 =
        (epochField state + ahead) % 2 ^ 32) :
    epochDistance state epoch ≤ 0 := by
  have state_lt := epochField_lt state
  rw [epochDistance, BitVec.toInt_eq_toNat_cond, BitVec.toNat_sub,
    toNat_and_epochMask, toNat_modificationEpoch, ticket]
  split <;> omega

end AsyncRuntime.WorkNotifier
