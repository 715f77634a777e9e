import LosTrouvee.Objects.StringExtension

namespace LosTrouvee

def Letters (s : String) : Prop :=
  ∀ c ∈ s.toList, c.isAlpha

instance (s : String) : Decidable (Letters s) :=
  decidable_of_iff (s.toList.all Char.isAlpha) List.all_eq_true

-- The Unicode tables behind Swift strings: how a string is divided into characters, i.e. into
-- extended grapheme clusters, and how its case is changed. The app relies on them for ASCII letters
-- only.
class Unicode where
  characters : String → List String
  uppercased : String → String
  lowercased : String → String
  characters_letters (s : String) : Letters s → characters s = s.toList.map String.singleton
  uppercased_letters (s : String) : Letters s → uppercased s = .ofList (s.toList.map Char.toUpper)
  lowercased_letters (s : String) : Letters s → lowercased s = .ofList (s.toList.map Char.toLower)

namespace Unicode

-- The tables restricted to ASCII.
@[reducible]
def ascii : Unicode where
  characters s := s.toList.map String.singleton
  uppercased s := .ofList (s.toList.map Char.toUpper)
  lowercased s := .ofList (s.toList.map Char.toLower)
  characters_letters _ _ := rfl
  uppercased_letters _ _ := rfl
  lowercased_letters _ _ := rfl

variable [Unicode]

def count (s : String) : Int :=
  StringExtension.length (characters s)

-- `s[0].uppercased()` followed by `s.substring(fromIndex: 1)`.
def capitalized (s : String) : Except Trap String := do
  let head ← StringExtension.subscript (characters s) 0
  let tail ← StringExtension.substringFrom (characters s) 1
  return uppercased (String.join head) ++ String.join tail

theorem capitalized_ok (s : String) : ∃ t, capitalized s = .ok t :=
  ⟨_, by
    rw [capitalized, StringExtension.subscript_eq _ (by decide), StringExtension.substringFrom_eq]
    rfl⟩

def capitalizedLetters (s : String) : String :=
  .ofList <| match s.toList with
    | []      => []
    | c :: cs => c.toUpper :: cs

omit [Unicode] in
theorem join_singletons (cs : List Char) : String.join (cs.map String.singleton) = .ofList cs := by
  have h : ∀ s : String, (cs.map String.singleton).foldl (· ++ ·) s = s ++ .ofList cs := by
    induction cs
    case nil => simp
    case cons c cs hi =>
      intro s
      rw [List.map_cons, List.foldl_cons, hi, ← String.toList_inj]
      simp
  simpa [String.join] using h ""

theorem capitalized_letters {s : String} (h : Letters s) :
    capitalized s = .ok (capitalizedLetters s) := by
  rw [capitalized, characters_letters s h, StringExtension.substringFrom_eq,
    StringExtension.subscript_eq _ (by decide)]
  cases hs : s.toList
  case nil =>
    have hu := uppercased_letters "" (by decide)
    simpa [capitalizedLetters, hs, StringExtension.slice, bind, Except.bind, pure, Except.pure,
      String.join] using hu
  case cons c cs =>
    have hc : Letters (String.singleton c) := by simpa [Letters] using h c (by simp [hs])
    have hj : String.join [String.singleton c] = String.singleton c := by simp [String.join]
    have ht := join_singletons cs
    simp [capitalizedLetters, hs, StringExtension.slice, bind, Except.bind, pure, Except.pure,
      hj, ht, uppercased_letters _ hc]

end Unicode
end LosTrouvee
