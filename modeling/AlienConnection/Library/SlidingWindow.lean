import Mathlib.Data.List.Basic
import Mathlib.Algebra.Group.Nat.Defs

/-!
# Windows that slide over numbers

A window filter accepts a number once, and only if it is not too far behind the highest
number accepted so far. The accepted numbers of the last blocks can be kept as bits of a
ring of blocks: a block that enters the window takes the place of the block that leaves
it, after its bits have been cleared.
-/

namespace AlienConnection.Library.SlidingWindow

def highest (accepted : List Nat) : Nat := accepted.foldr max 0

@[simp]
theorem highest_cons (number : Nat) (accepted : List Nat) :
    highest (number :: accepted) = max number (highest accepted) := rfl

theorem le_highest {number : Nat} {accepted : List Nat} (member : number ∈ accepted) :
    number ≤ highest accepted := by
  induction accepted with
  | nil => cases member
  | cons first rest ih =>
      rw [highest_cons]
      rcases List.mem_cons.mp member with rfl | later
      · exact Nat.le_max_left _ _
      · exact Nat.le_trans (ih later) (Nat.le_max_right _ _)

/-- What a window filter accepts: a number below a limit that is new, and that is at most
the size of the window behind the highest one. -/
def Admits (window limit : Nat) (accepted : List Nat) (number : Nat) : Prop :=
  number < limit ∧ highest accepted ≤ number + window ∧ number ∉ accepted

instance (window limit : Nat) (accepted : List Nat) (number : Nat) :
    Decidable (Admits window limit accepted number) :=
  inferInstanceAs (Decidable (_ ∧ _ ∧ _))

/-! ## Rings of blocks -/

/-- A ring of blocks holds the accepted numbers of the blocks up to the current one, as far
back as it has blocks. What stands in its other places does not matter. -/
def Holds (width size : Nat) (bit : Nat → Nat → Bool) (current : Nat) (accepted : List Nat) :
    Prop :=
  ∀ block offset, block ≤ current → current < block + size → offset < width →
    (bit (block % size) offset = true ↔ width * block + offset ∈ accepted)

theorem holds_congr {width size : Nat} {bit : Nat → Nat → Bool} {current : Nat}
    {accepted others : List Nat} (held : Holds width size bit current accepted)
    (same : ∀ number, number ∈ accepted ↔ number ∈ others) :
    Holds width size bit current others := by
  intro block offset reached recent inside
  rw [held block offset reached recent inside, same]

/-- Steps that lead to one place of the ring are as far apart as the ring is long. -/
theorem apart_of_mod_eq {size first second : Nat} (less : first < second)
    (near : second < first + size) : second % size ≠ first % size := by
  intro same
  have divides : size ∣ second - first :=
    Nat.dvd_of_mod_eq_zero (Nat.sub_mod_eq_zero_of_mod_eq same)
  have := Nat.le_of_dvd (by omega) divides
  omega

/-- Every place of the ring is met within one turn. -/
theorem met_within_turn {size : Nat} (some : 0 < size) (current distance : Nat)
    (ahead : 0 < distance) :
    ∃ steps, 0 < steps ∧ steps ≤ min distance size ∧
      (current + steps) % size = (current + distance) % size := by
  by_cases short : distance ≤ size
  · exact ⟨distance, ahead, by omega, rfl⟩
  · refine ⟨(distance - 1) % size + 1, by omega, ?_, ?_⟩
    · have := Nat.mod_lt (distance - 1) some
      omega
    · have whole : current + distance = (current + 1) + (distance - 1) := by omega
      have part : current + ((distance - 1) % size + 1) =
          (current + 1) + (distance - 1) % size := by omega
      rw [whole, part, Nat.add_mod_mod]

/-- Moving on to a later block keeps the ring right if the places of all blocks in between,
or of all blocks there are, have been cleared. -/
theorem holds_forward {width size : Nat} (some : 0 < size) {bit cleared : Nat → Nat → Bool}
    {current distance : Nat} {accepted : List Nat}
    (held : Holds width size bit current accepted)
    (behind : ∀ number ∈ accepted, number < width * (current + 1))
    (clears : ∀ slot offset, cleared slot offset = true ↔ bit slot offset = true ∧
      ∀ steps, 0 < steps → steps ≤ min distance size → slot ≠ (current + steps) % size) :
    Holds width size cleared (current + distance) accepted := by
  intro block offset reached recent inside
  rw [clears]
  by_cases old : block ≤ current
  · rw [held block offset old (by omega) inside]
    constructor
    · exact And.left
    · intro member
      refine ⟨member, ?_⟩
      intro steps positive bounded same
      have later : block < current + steps := by omega
      exact apart_of_mod_eq later (by omega) same.symm
  · obtain ⟨steps, positive, bounded, same⟩ :=
      met_within_turn some current (block - current) (by omega)
    constructor
    · rintro ⟨_, spared⟩
      have place : current + (block - current) = block := by omega
      rw [place] at same
      exact absurd same.symm (spared steps positive (by omega))
    · intro member
      have low := behind _ member
      have high : width * (current + 1) ≤ width * block := Nat.mul_le_mul_left _ (by omega)
      omega

/-- Setting one bit of a block that is in the window adds its number. -/
theorem holds_insert {width size : Nat} {bit marked : Nat → Nat → Bool} {current : Nat}
    {accepted : List Nat} (held : Holds width size bit current accepted) {block offset : Nat}
    (reached : block ≤ current) (recent : current < block + size) (inside : offset < width)
    (marks : ∀ slot place, marked slot place = true ↔
      bit slot place = true ∨ slot = block % size ∧ place = offset) :
    Holds width size marked current ((width * block + offset) :: accepted) := by
  intro other place reached' recent' inside'
  rw [marks, held other place reached' recent' inside', List.mem_cons]
  have same : other % size = block % size ∧ place = offset ↔
      width * other + place = width * block + offset := by
    constructor
    · rintro ⟨slot, rfl⟩
      rcases Nat.lt_trichotomy other block with less | rfl | more
      · exact absurd slot.symm (apart_of_mod_eq less (by omega))
      · rfl
      · exact absurd slot (apart_of_mod_eq more (by omega))
    · intro equal
      have quotient := congrArg (· / width) equal
      have remainder := congrArg (· % width) equal
      have positive : 0 < width := by omega
      simp only [Nat.mul_add_div positive, Nat.div_eq_of_lt inside, Nat.div_eq_of_lt inside',
        Nat.mul_add_mod, Nat.mod_eq_of_lt inside, Nat.mod_eq_of_lt inside'] at quotient remainder
      exact ⟨congrArg (· % size) quotient, remainder⟩
  rw [same, or_comm]

end AlienConnection.Library.SlidingWindow
