import CanonTree.Text.Digit
import CanonTree.Text.Quoted
import Mathlib.Data.List.Basic

/-!
# Recovering what was written

A row of characters can be read back if, whatever stands behind it, there is only one way to
tell it from that.  `Recovered` says so of a way to write values, up to what is of
interest of a value, and under a condition on what may stand behind.  Rows that are
written one after the other are recovered if each of them is and the later ones meet the
condition of the earlier.  This is how the lines of a dump are read; here are
the parts that they have in common, numbers and quoted texts among them.
-/

namespace CanonTree.Text

/-! ## Rows of characters -/

section Recovered

variable {α β γ : Type} {write write' : α → List Char} {view : α → β} {view' : α → γ}
  {follows follows' : List Char → Prop}

/-- What is written for a value determines what is to be seen of it, and where it ends, if the rest
follows. -/
def Recovered (write : α → List Char) (view : α → β) (follows : List Char → Prop) : Prop :=
  ∀ left right rest rest', follows rest → follows rest' →
    write left ++ rest = write right ++ rest' → view left = view right ∧ rest = rest'

def anything (_ : List Char) : Prop := True

namespace Recovered

theorem append (hfirst : Recovered write view follows) (hsecond : Recovered write' view' follows')
    (hfollows : ∀ value rest, follows' rest → follows (write' value ++ rest)) :
    Recovered (fun value => write value ++ write' value)
      (fun value => (view value, view' value)) follows' := by
  intro left right rest rest' hrest hrest' heq
  rw [List.append_assoc, List.append_assoc] at heq
  obtain ⟨hview, heq⟩ :=
    hfirst left right _ _ (hfollows left rest hrest) (hfollows right rest' hrest') heq
  obtain ⟨hview', heq⟩ := hsecond left right rest rest' hrest hrest' heq
  exact ⟨Prod.ext hview hview', heq⟩

/-- The part of a value that is written. -/
theorem comap (hrecovered : Recovered write view follows) (part : γ → α) :
    Recovered (write ∘ part) (view ∘ part) follows :=
  fun left right => hrecovered (part left) (part right)

/-- A fixed text in front. -/
theorem cons (hrecovered : Recovered write view follows) (first : Char) :
    Recovered (fun value => first :: write value) view follows := by
  intro left right rest rest' hrest hrest' heq
  exact hrecovered left right rest rest' hrest hrest' (List.cons.inj heq).2

end Recovered

/-- The rest does not go on with a character that passes the test. -/
def stops (test : Char → Bool) (rest : List Char) : Prop :=
  ∀ c ∈ rest.head?, test c = false

/-- A row of characters that pass a test ends before the first that does not. -/
theorem takeWhile_append_of_stops {test : Char → Bool} {row rest : List Char}
    (hrow : ∀ c ∈ row, test c = true) (hrest : stops test rest) :
    (row ++ rest).takeWhile test = row := by
  have hnone : rest.takeWhile test = [] := by
    cases rest with
    | nil => rfl
    | cons c rest => rw [List.takeWhile_cons_of_neg (by simp [hrest c rfl])]
  rw [List.takeWhile_append_of_pos hrow, hnone, List.append_nil]

theorem recovered_of_test {test : Char → Bool} (htest : ∀ value, ∀ c ∈ write value, test c = true)
    (hview : ∀ left right, write left = write right → view left = view right) :
    Recovered write view (stops test) := by
  intro left right rest rest' hrest hrest' heq
  have hrow : write left = write right := by
    rw [← takeWhile_append_of_stops (htest left) hrest, heq,
      takeWhile_append_of_stops (htest right) hrest']
  rw [hrow] at heq
  exact ⟨hview left right hrow, List.append_cancel_left heq⟩

/-- A row with a character behind it that does not stand in it. -/
theorem recovered_until (mark : Char) (hmark : ∀ value, mark ∉ write value)
    (hview : ∀ left right, write left = write right → view left = view right) :
    Recovered (fun value => write value ++ [mark]) view anything := by
  have hrow : Recovered write view (stops (· != mark)) := by
    refine recovered_of_test ?_ hview
    intro value c hc
    rw [bne_iff_ne]
    rintro rfl
    exact hmark value hc
  intro left right rest rest' _ _ heq
  simp only [List.append_assoc, List.singleton_append] at heq
  obtain ⟨hview, heq⟩ := hrow left right _ _ (by simp [stops]) (by simp [stops]) heq
  exact ⟨hview, (List.cons.inj heq).2⟩

/-- The rest does not begin with a blank and the given character. -/
def lacks (mark : Char) (rest : List Char) : Prop :=
  ∀ others, rest ≠ ' ' :: mark :: others

/-- A row that may be left out, if it begins with a blank and a character that shows it is there. -/
theorem recovered_option (mark : Char) (hrecovered : Recovered write view anything) :
    Recovered (fun value : Option α => value.elim [] fun value => ' ' :: mark :: write value)
      (Option.map view) (lacks mark) := by
  intro left right rest rest' hrest hrest' heq
  cases left with
  | none =>
      cases right with
      | none => exact ⟨rfl, heq⟩
      | some right => exact absurd heq (hrest _)
  | some left =>
      cases right with
      | none => exact absurd heq.symm (hrest' _)
      | some right =>
          simp only [Option.elim_some, List.cons_append, List.cons.injEq, true_and] at heq
          obtain ⟨hview, heq⟩ := hrecovered left right rest rest' trivial trivial heq
          exact ⟨congrArg some hview, heq⟩

/-- Rows one after the other, each of which can be recovered, up to a mark with which none of
them begins. -/
theorem recovered_flatMap_until (mark : Char) (hrecovered : Recovered write view anything)
    (hmark : ∀ value, ∃ first others, write value = first :: others ∧ first ≠ mark) :
    Recovered (fun values : List α => values.flatMap write ++ [mark]) (List.map view)
      anything := by
  intro left
  induction left with
  | nil =>
      intro right rest rest' _ _ heq
      cases right with
      | nil => exact ⟨rfl, (List.cons.inj heq).2⟩
      | cons value values =>
          obtain ⟨first, others, hwrite, hne⟩ := hmark value
          simp only [List.flatMap_cons, hwrite] at heq
          exact absurd (List.cons.inj heq).1.symm hne
  | cons value values ih =>
      intro right rest rest' hrest hrest' heq
      cases right with
      | nil =>
          obtain ⟨first, others, hwrite, hne⟩ := hmark value
          simp only [List.flatMap_cons, hwrite] at heq
          exact absurd (List.cons.inj heq).1 hne
      | cons value' values' =>
          simp only [List.flatMap_cons, List.append_assoc] at heq
          obtain ⟨hview, heq⟩ := hrecovered value value' _ _ trivial trivial heq
          simp only [← List.append_assoc] at heq
          obtain ⟨hviews, heq⟩ := ih values' rest rest' hrest hrest' heq
          exact ⟨by rw [List.map_cons, List.map_cons, hview, hviews], heq⟩

end Recovered

/-! ## Numbers -/

theorem digitValue_digitChar {digit : Nat} (hdigit : digit < 16) :
    digitValue digit.digitChar = digit := by
  have hall : ∀ digit < 16, digitValue (Nat.digitChar digit) = digit := by decide
  exact hall digit hdigit

theorem isHexDigit_digitChar {digit : Nat} (hdigit : digit < 16) :
    isHexDigit digit.digitChar = true := by
  have hall : ∀ digit < 16, isHexDigit (Nat.digitChar digit) = true := by decide
  exact hall digit hdigit

/-- Hexadecimal figures read as the number that they were written for. -/
theorem digitsValue_toDigits (number : Nat) :
    digitsValue 16 (Nat.toDigits 16 number) = number := by
  induction number using Nat.strongRecOn with
  | ind number ih =>
      by_cases hsmall : number < 16
      · rw [Nat.toDigits_of_lt_base hsmall]
        simp [digitsValue, digitValue_digitChar hsmall]
      · have hfront := ih (number / 16) (by omega)
        have hlast := digitValue_digitChar (Nat.mod_lt number (Nat.succ_pos 15))
        rw [digitsValue] at hfront
        rw [Nat.toDigits_of_base_le (by decide) (Nat.le_of_not_lt hsmall), digitsValue,
          List.foldl_append, hfront, List.foldl_cons, List.foldl_nil, hlast]
        omega

theorem isHexDigit_of_mem_toDigits (number : Nat) :
    ∀ c ∈ Nat.toDigits 16 number, isHexDigit c = true := by
  induction number using Nat.strongRecOn with
  | ind number ih =>
      by_cases hsmall : number < 16
      · rw [Nat.toDigits_of_lt_base hsmall]
        simpa using isHexDigit_digitChar hsmall
      · rw [Nat.toDigits_of_base_le (by decide) (Nat.le_of_not_lt hsmall), List.forall_mem_append]
        refine ⟨ih (number / 16) (by omega), ?_⟩
        simpa using isHexDigit_digitChar (Nat.mod_lt number (Nat.succ_pos 15))

theorem toList_toString_word (word : UInt32) :
    (toString word).toList = Nat.toDigits 10 word.toNat := by
  change (toString word.toNat).toList = _
  rw [Nat.toString_eq_ofList_toDigits, String.toList_ofList]

theorem isDigit_of_mem_toString {word : UInt32} {c : Char} (hc : c ∈ (toString word).toList) :
    c.isDigit = true := by
  rw [toList_toString_word] at hc
  exact Nat.isDigit_of_mem_toDigits (by decide) (by decide) hc

theorem recovered_word :
    Recovered (fun word : UInt32 => (toString word).toList) id (stops Char.isDigit) := by
  refine recovered_of_test (fun word c hc => isDigit_of_mem_toString hc) ?_
  intro left right heq
  simp only [toList_toString_word] at heq
  have hnumber := congrArg (Nat.ofDigitChars 10 · 0) heq
  simp only [Nat.ofDigitChars_ten_toDigits] at hnumber
  exact UInt32.toNat_inj.mp hnumber

/-! ## Quoted texts -/

/-- Characters with a letter of their own behind the backslash. -/
def lettered : List (Char × Char) :=
  [('\x00', '0'), ('\t', 't'), ('\r', 'r'), ('\n', 'n'), ('"', '"'), ('\\', '\\')]

/-- The three ways to write a character between quotes. -/
inductive Escaped : Char → List Char → Prop where
  | plain {c : Char} (hbackslash : c ≠ '\\') (hquote : c ≠ '"') (hend : c ≠ '\n') :
      Escaped c [c]
  | letter {c letter : Char} (hletter : (c, letter) ∈ lettered) : Escaped c ['\\', letter]
  | code (c : Char) :
      Escaped c ('\\' :: 'u' :: '\x7b' :: (Nat.toDigits 16 c.toNat ++ ['\x7d']))

theorem escaped_escape (c : Char) : Escaped c (escape c) := by
  rw [escape]
  split_ifs with hnull htab hreturn hend hquote hbackslash
  case pos | pos | pos | pos | pos | pos =>
    subst c
    exact .letter (by decide)
  · exact .plain hbackslash hquote hend
  · exact .code c

/-- The code point of a character, up to the brace behind it. -/
theorem recovered_code :
    Recovered (fun c : Char => Nat.toDigits 16 c.toNat ++ ['\x7d']) id anything := by
  refine recovered_until '\x7d' ?_ ?_
  · intro c hmark
    have hdigit := isHexDigit_of_mem_toDigits _ _ hmark
    revert hdigit
    decide
  · intro left right heq
    have hnumber := congrArg (digitsValue 16) heq
    rw [digitsValue_toDigits, digitsValue_toDigits] at hnumber
    exact Char.toNat_inj.mp hnumber

theorem eq_of_lettered {left right letter : Char} (hleft : (left, letter) ∈ lettered)
    (hright : (right, letter) ∈ lettered) : left = right := by
  have hall : ∀ entry ∈ lettered, ∀ other ∈ lettered, entry.2 = other.2 → entry.1 = other.1 := by
    decide
  exact hall _ hleft _ hright rfl

/-- No letter is taken for the sign of a code point, and none ends a line. -/
theorem letter_ne {c letter : Char} (hletter : (c, letter) ∈ lettered) :
    letter ≠ 'u' ∧ letter ≠ '\n' := by
  have hall : ∀ entry ∈ lettered, entry.2 ≠ 'u' ∧ entry.2 ≠ '\n' := by decide
  exact hall _ hletter

/-- No way to write a character begins another. -/
theorem recovered_escape : Recovered escape id anything := by
  intro left right rest rest' _ _ heq
  have hleft := escaped_escape left
  have hright := escaped_escape right
  generalize escape left = written at hleft heq
  generalize escape right = written' at hright heq
  cases hleft with
  | plain hbackslash _ _ =>
      cases hright with
      | plain _ _ _ =>
          obtain ⟨rfl, hrest⟩ := List.cons.inj heq
          exact ⟨rfl, hrest⟩
      | letter _ => exact absurd (List.cons.inj heq).1 hbackslash
      | code => exact absurd (List.cons.inj heq).1 hbackslash
  | letter hletter =>
      cases hright with
      | plain hbackslash _ _ => exact absurd (List.cons.inj heq).1.symm hbackslash
      | letter hletter' =>
          obtain ⟨rfl, hrest⟩ := List.cons.inj (List.cons.inj heq).2
          exact ⟨eq_of_lettered hletter hletter', hrest⟩
      | code =>
          exact absurd (List.cons.inj (List.cons.inj heq).2).1 (letter_ne hletter).1
  | code =>
      cases hright with
      | plain hbackslash _ _ => exact absurd (List.cons.inj heq).1.symm hbackslash
      | letter hletter =>
          exact absurd (List.cons.inj (List.cons.inj heq).2).1.symm (letter_ne hletter).1
      | code =>
          refine recovered_code left right rest rest' trivial trivial ?_
          exact (List.cons.inj (List.cons.inj (List.cons.inj heq).2).2).2

/-- A quoted text, behind its first quote, ends at the first quote that is not escaped. -/
theorem recovered_quoted :
    Recovered (fun text : String => text.toList.flatMap escape ++ ['"']) id anything := by
  have hchars := recovered_flatMap_until '"' recovered_escape (by
    intro c
    have hescaped := escaped_escape c
    generalize escape c = written at hescaped
    cases hescaped with
    | plain _ hquote _ => exact ⟨c, [], rfl, hquote⟩
    | letter _ => exact ⟨_, _, rfl, by decide⟩
    | code => exact ⟨_, _, rfl, by decide⟩)
  intro left right rest rest' hrest hrest' heq
  obtain ⟨hview, heq⟩ := hchars left.toList right.toList rest rest' hrest hrest' heq
  rw [List.map_id, List.map_id] at hview
  exact ⟨String.toList_inj.mp hview, heq⟩

theorem lineEnd_not_mem_escape (c : Char) : '\n' ∉ escape c := by
  have hescaped := escaped_escape c
  generalize escape c = written at hescaped
  cases hescaped with
  | plain _ _ hend => simpa using hend.symm
  | letter hletter => simpa using (letter_ne hletter).2.symm
  | code =>
      have hdigits : '\n' ∉ Nat.toDigits 16 c.toNat := by
        intro hend
        have hdigit := isHexDigit_of_mem_toDigits _ _ hend
        revert hdigit
        decide
      simpa using hdigits

theorem toList_quoted (text : String) :
    (quoted text).toList = '"' :: (text.toList.flatMap escape ++ ['"']) := by
  rw [quoted, String.toList_ofList, quotedChars, List.cons_append]

/-- A quoted text stays on its line. -/
theorem lineEnd_not_mem_quoted (text : String) : '\n' ∉ (quoted text).toList := by
  rw [toList_quoted]
  simpa using fun c _ => lineEnd_not_mem_escape c

end CanonTree.Text
