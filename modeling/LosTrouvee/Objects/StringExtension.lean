import LosTrouvee.Objects.Swift

namespace LosTrouvee

-- A string is read as the list of its characters, and a `String.Index` as the number of characters
-- before it.
namespace StringExtension

variable {Character : Type}

def length (s : List Character) : Int :=
  s.length

def index (s : List Character) (i : Int) (offsetBy : Int) : Except Trap Int :=
  if 0 ≤ i + offsetBy ∧ i + offsetBy ≤ length s then
    .ok (i + offsetBy)
  else
    .error .stringIndexOutOfBounds

-- `String(self[start ..< end])` for two indices of `s`.
def slice (s : List Character) (r : IntRange) : List Character :=
  (s.take r.upperBound.toNat).drop r.lowerBound.toNat

def subscriptRange (s : List Character) (r : IntRange) : Except Trap (List Character) := do
  let range : IntRange :=
    { lowerBound := max 0 (min (length s) r.lowerBound)
      upperBound := min (length s) (max 0 r.upperBound) }
  let start ← index s 0 range.lowerBound
  let stop ← index s start (range.upperBound - range.lowerBound)
  let bounds ← halfOpen start stop
  return slice s bounds

def subscript (s : List Character) (i : Int) : Except Trap (List Character) := do
  let r ← halfOpen i (← add i 1)
  subscriptRange s r

def substringFrom (s : List Character) (fromIndex : Int) : Except Trap (List Character) := do
  let r ← halfOpen (min fromIndex (length s)) (length s)
  subscriptRange s r

def substringTo (s : List Character) (toIndex : Int) : Except Trap (List Character) := do
  let r ← halfOpen 0 (max 0 toIndex)
  subscriptRange s r

-- The characters of `s` at the positions `p` with `a ≤ p < b`, in order.
def charactersAt (s : List Character) (a b : Int) : List Character :=
  s.zipIdx.filter (fun x => a ≤ x.2 ∧ x.2 < b) |>.map Prod.fst

theorem zipIdx_filter_eq (s : List Character) (n i j : Nat) :
    ((s.zipIdx n).filter (fun x => i ≤ x.2 && x.2 < j)).map Prod.fst =
      (s.take (j - n)).drop (i - n) := by
  induction s generalizing n
  case nil => simp
  case cons c s hi =>
    simp only [List.zipIdx_cons, List.filter_cons]
    by_cases hj : n < j
    case neg =>
      have h : j - n = 0 := by omega
      have h' : j - (n + 1) = 0 := by omega
      simpa [hj, h, h'] using hi (n + 1)
    case pos =>
      obtain ⟨d, hd⟩ : ∃ d, j - n = d + 1 := ⟨j - n - 1, by omega⟩
      have hd' : j - (n + 1) = d := by omega
      by_cases hn : i ≤ n
      case pos =>
        have h : i - n = 0 := by omega
        have h' : i - (n + 1) = 0 := by omega
        simp [hi, hn, hj, hd, hd', h, h']
      case neg =>
        obtain ⟨k, hk⟩ : ∃ k, i - n = k + 1 := ⟨i - n - 1, by omega⟩
        have hk' : i - (n + 1) = k := by omega
        simp [hi, hn, hd, hd', hk, hk']

-- Positions are natural numbers, so the bounds can be cut off at zero.
theorem charactersAt_eq_slice (s : List Character) (a b : Int) :
    charactersAt s a b = slice s ⟨a, b⟩ := by
  have h : (fun x : Character × Nat => decide (a ≤ x.2 ∧ x.2 < b)) =
      (fun x => a.toNat ≤ x.2 && x.2 < b.toNat) := by
    funext x
    rw [← Bool.decide_and, decide_eq_decide]
    omega
  rw [charactersAt, h, zipIdx_filter_eq, slice]
  simp

theorem slice_clamp (s : List Character) (a b : Int) :
    slice s ⟨max 0 (min (length s) a), min (length s) (max 0 b)⟩ = slice s ⟨a, b⟩ := by
  have hb : s.take (min (length s) (max 0 b)).toNat = s.take b.toNat := by
    rw [List.take_eq_take_iff, length]
    omega
  have hl := List.length_take_le' b.toNat s
  simp only [slice, hb]
  by_cases ha : a ≤ length s
  case pos =>
    congr 1
    simp only [length] at ha ⊢
    omega
  case neg =>
    simp only [length] at ha ⊢
    rw [List.drop_eq_nil_of_le (by omega), List.drop_eq_nil_of_le (by omega)]

theorem subscriptRange_eq (s : List Character) {a b : Int} (h : a ≤ b) :
    subscriptRange s ⟨a, b⟩ = .ok (slice s ⟨a, b⟩) := by
  rw [← slice_clamp s a b, subscriptRange]
  have hn : 0 ≤ length s := Int.natCast_nonneg _
  simp only [index, bind, Except.bind, pure, Except.pure]
  rw [if_pos (by omega)]
  simp only [Int.zero_add]
  rw [if_pos (by omega)]
  simp only []
  rw [halfOpen_eq_ok (by omega)]
  simp only [Except.ok.injEq]
  congr 2
  omega

theorem substringTo_eq (s : List Character) (n : Int) :
    substringTo s n = .ok (s.take n.toNat) := by
  have h : 0 ≤ max 0 n := by omega
  have hn : (max 0 n).toNat = n.toNat := by omega
  simp [substringTo, halfOpen_eq_ok h, subscriptRange_eq s h, slice, hn, bind, Except.bind]

theorem substringFrom_eq (s : List Character) (n : Int) :
    substringFrom s n = .ok (s.drop n.toNat) := by
  have h : min n (length s) ≤ length s := by omega
  simp only [substringFrom, halfOpen_eq_ok h, subscriptRange_eq s h, slice, bind, Except.bind,
    Except.ok.injEq]
  have hl : (length s).toNat = s.length := by simp [length]
  rw [hl, List.take_length]
  by_cases hn : n ≤ length s
  case pos => rw [Int.min_eq_left hn]
  case neg =>
    simp only [length] at hn ⊢
    rw [List.drop_eq_nil_of_le (by omega), List.drop_eq_nil_of_le (by omega)]

theorem subscript_eq (s : List Character) {i : Int} (h : i < intMax) :
    subscript s i = .ok (slice s ⟨i, i + 1⟩) := by
  have hs : i + 1 ≤ intMax := by omega
  have hi : i ≤ i + 1 := by omega
  simp [subscript, add, hs, halfOpen_eq_ok hi, subscriptRange_eq s hi, bind, Except.bind]

theorem subscript_inside (s : List Character) {i : Int} (h : i < intMax) (h₀ : 0 ≤ i)
    (hl : i < length s) : ∃ c, s[i.toNat]? = some c ∧ subscript s i = .ok [c] := by
  have hi : i.toNat < s.length := by simp only [length] at hl; omega
  have hs : (i + 1).toNat = i.toNat + 1 := by omega
  refine ⟨s[i.toNat], List.getElem?_eq_getElem hi, ?_⟩
  simp [subscript_eq s h, slice, hs, List.drop_take, List.take_one, List.head?_drop, hi]

theorem subscript_outside (s : List Character) {i : Int} (h : i < intMax)
    (ho : ¬(0 ≤ i ∧ i < length s)) : subscript s i = .ok [] := by
  rw [subscript_eq s h, Except.ok.injEq, slice]
  simp only [length] at ho
  apply List.drop_eq_nil_of_le
  simp only [List.length_take]
  omega

-- The slices of a string meet without gap or overlap, whatever the bounds.
theorem subscripts_correct (s : List Character) :
    (∀ a b, a ≤ b → (halfOpen a b >>= subscriptRange s) = .ok (charactersAt s a b)) ∧
    (∀ n, ∃ t u, substringTo s n = .ok t ∧ substringFrom s n = .ok u ∧ t ++ u = s) ∧
    (∀ i < intMax, 0 ≤ i → i < length s →
      ∃ c, s[i.toNat]? = some c ∧ subscript s i = .ok [c]) ∧
    (∀ i < intMax, ¬(0 ≤ i ∧ i < length s) → subscript s i = .ok []) := by
  refine ⟨?range, ?meet, fun _ h h₀ hl => subscript_inside s h h₀ hl,
    fun _ h ho => subscript_outside s h ho⟩
  case range =>
    intro a b h
    simp [halfOpen_eq_ok h, subscriptRange_eq s h, charactersAt_eq_slice, bind, Except.bind]
  case meet =>
    exact fun n => ⟨_, _, substringTo_eq s n, substringFrom_eq s n, List.take_append_drop ..⟩

end StringExtension
end LosTrouvee
