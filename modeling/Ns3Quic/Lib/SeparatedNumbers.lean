import Mathlib.Data.List.TakeWhile

/-!
# Numbers with separators

A text of decimal numbers, each but the last followed by a character that is
no digit, determines the numbers: the digits up to the first other character
are those of the first number.
-/

namespace SeparatedNumbers

/-- The decimal text of the numbers, each followed by its separator, and of the
last number. -/
def render : List (Nat × Char) → Nat → List Char
  | [], last => Nat.toDigits 10 last
  | (number, separator) :: rest, last =>
      Nat.toDigits 10 number ++ separator :: render rest last

theorem toDigits_injective {first second : Nat}
    (same : Nat.toDigits 10 first = Nat.toDigits 10 second) : first = second := by
  have readBack := congrArg (fun digits => Nat.ofDigitChars 10 digits 0) same
  simpa only [Nat.ofDigitChars_ten_toDigits] using readBack

theorem isDigit_of_mem {number : Nat} {digit : Char}
    (membership : digit ∈ Nat.toDigits 10 number) : digit.isDigit = true :=
  Nat.isDigit_of_mem_toDigits (by decide) (le_refl 10) membership

/-- A text ends at the first character that cannot occur in it. -/
theorem append_cons_inj {keep : Char → Bool} {separator : Char} (stops : keep separator = false)
    {first second rest other : List Char} (firstKept : ∀ character ∈ first, keep character = true)
    (secondKept : ∀ character ∈ second, keep character = true)
    (same : first ++ separator :: rest = second ++ separator :: other) :
    first = second ∧ rest = other := by
  have stop (text tail : List Char) (kept : ∀ character ∈ text, keep character = true) :
      (text ++ separator :: tail).takeWhile keep = text := by
    rw [List.takeWhile_append_of_pos kept, List.takeWhile_cons_of_neg (by simp [stops]),
      List.append_nil]
  have texts := congrArg (List.takeWhile keep) same
  rw [stop first rest firstKept, stop second other secondKept] at texts
  subst texts
  exact ⟨rfl, (List.cons.inj (List.append_cancel_left same)).2⟩

theorem toDigits_append_cons_inj {first second : Nat} {separator : Char}
    (noDigit : separator.isDigit = false) {rest other : List Char}
    (same : Nat.toDigits 10 first ++ separator :: rest =
      Nat.toDigits 10 second ++ separator :: other) :
    first = second ∧ rest = other := by
  obtain ⟨digits, tails⟩ := append_cons_inj noDigit (fun _ => isDigit_of_mem)
    (fun _ => isDigit_of_mem) same
  exact ⟨toDigits_injective digits, tails⟩

theorem render_injective {left right : List (Nat × Char)} {leftLast rightLast : Nat}
    (separators : left.map Prod.snd = right.map Prod.snd)
    (noDigits : ∀ separator ∈ left.map Prod.snd, separator.isDigit = false)
    (same : render left leftLast = render right rightLast) :
    left = right ∧ leftLast = rightLast := by
  induction left generalizing right with
  | nil =>
      cases right with
      | nil => exact ⟨rfl, toDigits_injective same⟩
      | cons field rest => cases separators
  | cons field rest inductionHypothesis =>
      cases right with
      | nil => cases separators
      | cons other others =>
          obtain ⟨number, separator⟩ := field
          obtain ⟨otherNumber, otherSeparator⟩ := other
          obtain ⟨sameSeparator, later⟩ := List.cons.inj separators
          obtain ⟨noDigit, noLater⟩ := List.forall_mem_cons.mp noDigits
          dsimp only at sameSeparator noDigit
          subst sameSeparator
          obtain ⟨sameNumber, sameRest⟩ := toDigits_append_cons_inj noDigit same
          obtain ⟨fields, last⟩ := inductionHypothesis later noLater sameRest
          exact ⟨by rw [sameNumber, fields], last⟩

end SeparatedNumbers
