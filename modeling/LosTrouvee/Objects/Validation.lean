import LosTrouvee.Library.Regex

namespace LosTrouvee

-- The regular expressions of the app, as ICU reads their patterns. They work on the Unicode scalars
-- of a string.
namespace Validation

-- The range `a-b` of a bracket expression.
def range (a b c : Char) : Bool :=
  a ≤ c && c ≤ b

-- `[A-Z0-9a-z._%+-]`
def localSet (c : Char) : Bool :=
  range 'A' 'Z' c || range '0' '9' c || range 'a' 'z' c || ['.', '_', '%', '+', '-'].contains c

-- `[A-Za-z0-9.-]`
def domainSet (c : Char) : Bool :=
  range 'A' 'Z' c || range 'a' 'z' c || range '0' '9' c || ['.', '-'].contains c

-- `[A-Za-z]`
def letterSet (c : Char) : Bool :=
  range 'A' 'Z' c || range 'a' 'z' c

-- `[A-Z0-9a-z._%+-]+@[A-Za-z0-9.-]+\.[A-Za-z]{2,64}`
def emailRegEx : Regex Char :=
  .seq (.plus (.set localSet)) <| .seq (.lit '@') <| .seq (.plus (.set domainSet)) <|
    .seq (.lit '.') (.between (.set letterSet) 2 64)

-- `$` matches at the end of the input and before a line terminator that ends it.
def lineEnd (rest : List Char) : Bool :=
  rest.isEmpty ||
    [['\n'], ['\r'], ['\r', '\n'], ['\x0b'], ['\x0c'], ['\u0085'], ['\u2028'], ['\u2029']].contains rest

-- `^[0-9]+$`
def telRegex : Regex Char :=
  .seq (.behind List.isEmpty) <| .seq (.plus (.set (range '0' '9'))) (.ahead lineEnd)

-- `NSPredicate(format: "SELF MATCHES %@", regEx).evaluate(with: testStr)` is true if and only if
-- the regular expression matches the whole string.
def selfMatches (regEx : Regex Char) (testStr : String) : Bool :=
  regEx.matchesAll testStr.toList

theorem selfMatches_emailRegEx_iff {s : String} :
    selfMatches emailRegEx s ↔ ∃ name host label, s.toList = name ++ '@' :: host ++ '.' :: label ∧
      (name ≠ [] ∧ ∀ c ∈ name, localSet c) ∧ (host ≠ [] ∧ ∀ c ∈ host, domainSet c) ∧
      2 ≤ label.length ∧ label.length ≤ 64 ∧ ∀ c ∈ label, letterSet c := by
  simp only [selfMatches, Regex.matchesAll_iff, emailRegEx, Regex.Matches.seq_iff,
    Regex.Matches.plus_set_iff, Regex.Matches.lit_iff,
    Regex.Matches.between_set_iff (show 2 ≤ 64 by decide)]
  constructor
  case mp =>
    rintro ⟨name, _, hs, hn, _, _, rfl, rfl, host, _, rfl, hh, _, label, rfl, rfl, hl⟩
    exact ⟨name, host, label, by simp [hs], hn, hh, hl⟩
  case mpr =>
    rintro ⟨name, host, label, hs, hn, hh, hl⟩
    exact ⟨name, _, by simp [hs], hn, _, _, rfl, rfl, host, _, rfl, hh, _, label, rfl, rfl, hl⟩

-- The anchors add nothing to a match of the whole string.
theorem selfMatches_telRegex_iff {s : String} :
    selfMatches telRegex s ↔ s ≠ "" ∧ ∀ c ∈ s.toList, c.isDigit := by
  have hd : ∀ c, range '0' '9' c = c.isDigit := fun c => rfl
  simp only [selfMatches, Regex.matchesAll_iff, telRegex, Regex.Matches.seq_iff,
    Regex.Matches.plus_set_iff, Regex.Matches.behind_iff, Regex.Matches.ahead_iff, hd]
  constructor
  case mp =>
    rintro ⟨_, _, hs, ⟨-, rfl⟩, t, _, rfl, ht, -, rfl⟩
    simp only [List.nil_append, List.append_nil] at hs
    exact ⟨by rintro rfl; simp_all, hs ▸ ht.right⟩
  case mpr =>
    rintro ⟨hs, hd⟩
    have hn : s.toList ≠ [] := by simpa using hs
    exact ⟨[], s.toList, rfl, ⟨rfl, rfl⟩, s.toList, [], by simp, ⟨hn, hd⟩, rfl, rfl⟩

end Validation
end LosTrouvee
