import Mathlib.Data.Finset.Card
import Mathlib.Order.Interval.Finset.Nat

/-!
# A line of consecutive tickets

Arrivals draw consecutive ticket numbers; `served` counts the numbers already
called and `count` those issued and not called.  `TicketLine` says that the
numbers not yet called are held by exactly one waiting holder each, and that
every other waiting holder has a number that was called.  The line survives
arrivals, calls of any number of tickets, and departures of called holders.
-/

namespace AsyncRuntime.Foundation

universe u

variable {Holder : Type u}

/-- The waiting holders against the interval of numbers not yet called. -/
structure TicketLine (waiting : Holder → Prop) (ticket : Holder → ℕ)
    (served count : ℕ) : Prop where
  issued : ∀ holder, waiting holder → ticket holder < served + count
  covered :
    ∀ number, served ≤ number → number < served + count →
      ∃ holder, waiting holder ∧ ticket holder = number
  distinct :
    ∀ left right, waiting left → waiting right → served ≤ ticket left →
      ticket left = ticket right → left = right

variable {waiting waiting' : Holder → Prop} {ticket ticket' : Holder → ℕ}
variable {served count : ℕ}

/-- Only the waiting holders and their tickets matter. -/
theorem TicketLine.congr (line : TicketLine waiting ticket served count)
    (same : ∀ holder, waiting' holder ↔ waiting holder)
    (agree : ∀ holder, waiting holder → ticket' holder = ticket holder) :
    TicketLine waiting' ticket' served count where
  issued := by
    intro holder present
    rw [same] at present
    rw [agree holder present]
    exact line.issued holder present
  covered := by
    intro number above below
    rcases line.covered number above below with ⟨holder, present, number_eq⟩
    exact ⟨holder, (same holder).mpr present, (agree holder present).trans number_eq⟩
  distinct := by
    intro left right leftPresent rightPresent above equal
    rw [same] at leftPresent rightPresent
    rw [agree left leftPresent] at above equal
    rw [agree right rightPresent] at equal
    exact line.distinct left right leftPresent rightPresent above equal

/-- A new holder draws the next number. -/
theorem TicketLine.arrive (line : TicketLine waiting ticket served count)
    {arriving : Holder} (absent : ¬ waiting arriving)
    (same : ∀ holder, waiting' holder ↔ holder = arriving ∨ waiting holder)
    (drawn : ticket' arriving = served + count)
    (agree : ∀ holder, waiting holder → ticket' holder = ticket holder) :
    TicketLine waiting' ticket' served (count + 1) where
  issued := by
    intro holder present
    rcases (same holder).mp present with rfl | earlier
    · omega
    · have issued := line.issued holder earlier
      rw [agree holder earlier]
      omega
  covered := by
    intro number above below
    by_cases last : number = served + count
    · exact ⟨arriving, (same arriving).mpr (.inl rfl), drawn.trans last.symm⟩
    · rcases line.covered number above (by omega) with
        ⟨holder, present, number_eq⟩
      exact
        ⟨holder, (same holder).mpr (.inr present),
          (agree holder present).trans number_eq⟩
  distinct := by
    intro left right leftPresent rightPresent above equal
    rcases (same left).mp leftPresent with rfl | leftEarlier <;>
      rcases (same right).mp rightPresent with rfl | rightEarlier
    · rfl
    · have issued := line.issued right rightEarlier
      rw [agree right rightEarlier] at equal
      omega
    · have issued := line.issued left leftEarlier
      rw [agree left leftEarlier] at equal
      omega
    · rw [agree left leftEarlier] at above equal
      rw [agree right rightEarlier] at equal
      exact line.distinct left right leftEarlier rightEarlier above equal

/-- Calling the next numbers. -/
theorem TicketLine.call (line : TicketLine waiting ticket served count)
    {called : ℕ} (enough : called ≤ count) :
    TicketLine waiting ticket (served + called) (count - called) where
  issued := by
    intro holder present
    have issued := line.issued holder present
    omega
  covered := fun number above below =>
    line.covered number (by omega) (by omega)
  distinct := fun left right leftPresent rightPresent above equal =>
    line.distinct left right leftPresent rightPresent (by omega) equal

/-- A holder whose number was called leaves. -/
theorem TicketLine.leave (line : TicketLine waiting ticket served count)
    {leaving : Holder} (called : ticket leaving < served)
    (same : ∀ holder, waiting' holder ↔ waiting holder ∧ holder ≠ leaving) :
    TicketLine waiting' ticket served count where
  issued := fun holder present => line.issued holder ((same holder).mp present).1
  covered := by
    intro number above below
    rcases line.covered number above below with ⟨holder, present, rfl⟩
    refine ⟨holder, (same holder).mpr ⟨present, ?_⟩, rfl⟩
    rintro rfl
    omega
  distinct := fun left right leftPresent rightPresent =>
    line.distinct left right ((same left).mp leftPresent).1
      ((same right).mp rightPresent).1

/-- A number not yet called is held by exactly one waiting holder. -/
theorem TicketLine.existsUnique (line : TicketLine waiting ticket served count)
    {number : ℕ} (above : served ≤ number) (below : number < served + count) :
    ∃! holder, waiting holder ∧ ticket holder = number := by
  rcases line.covered number above below with ⟨holder, present, rfl⟩
  refine ⟨holder, ⟨present, rfl⟩, ?_⟩
  rintro other ⟨otherPresent, equal⟩
  exact line.distinct other holder otherPresent present (by omega) equal

/-- There are at most as many uncalled numbers as holders. -/
theorem TicketLine.count_le {size : ℕ} {waiting : ℕ → Prop} {ticket : ℕ → ℕ}
    (line : TicketLine waiting ticket served count)
    (bounded : ∀ holder, waiting holder → holder < size) : count ≤ size := by
  have inside :
      Finset.Ico served (served + count) ⊆
        (Finset.range size).image ticket := by
    intro number member
    rw [Finset.mem_Ico] at member
    rcases line.covered number member.1 member.2 with ⟨holder, present, equal⟩
    exact
      Finset.mem_image.mpr
        ⟨holder, Finset.mem_range.mpr (bounded holder present), equal⟩
  calc
    count = (Finset.Ico served (served + count)).card := by simp
    _ ≤ ((Finset.range size).image ticket).card := Finset.card_le_card inside
    _ ≤ (Finset.range size).card := Finset.card_image_le
    _ = size := Finset.card_range size

end AsyncRuntime.Foundation
