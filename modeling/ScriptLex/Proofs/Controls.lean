import Mathlib.Data.Nat.Digits.Defs
import ScriptLex.Text.Quoted

/-!
# Text without control characters

Numbers and quoted characters are spelled without ASCII control characters,
whatever is quoted. A line feed is such a character, so they do not go over a
line either.
-/

namespace ScriptLex

def IsControl (c : Char) : Prop := c.toNat < 32 ∨ c.toNat = 127

instance : DecidablePred IsControl := fun _ => inferInstanceAs (Decidable (_ ∨ _))

def ControlFree (text : List Char) : Prop := ∀ c ∈ text, ¬ IsControl c

instance : DecidablePred ControlFree := fun text => List.decidableBAll _ text

variable {text rest : List Char}

@[simp] theorem controlFree_append :
    ControlFree (text ++ rest) ↔ ControlFree text ∧ ControlFree rest :=
  List.forall_mem_append

theorem ControlFree.append {s t : String} (hs : ControlFree s.toList) (ht : ControlFree t.toList) :
    ControlFree (s ++ t).toList := by
  rw [String.toList_append]
  exact controlFree_append.mpr ⟨hs, ht⟩

theorem ControlFree.newline_notMem (h : ControlFree text) : '\n' ∉ text :=
  fun hmem => h '\n' hmem (by decide)

theorem controlFree_of_isDigit (h : ∀ c ∈ text, c.isDigit = true) : ControlFree text := by
  intro c hc hcontrol
  have hbounds : 48 ≤ c.toNat ∧ c.toNat ≤ 57 := Char.isDigit_iff_toNat.mp (h c hc)
  unfold IsControl at hcontrol
  omega

theorem not_isControl_digitChar (n : Nat) : ¬ IsControl (Nat.digitChar n) := by
  by_cases hn : n < 16
  · have hall : ∀ d < 16, ¬ IsControl (Nat.digitChar d) := by decide
    exact hall n hn
  · have hstar : Nat.digitChar n = '*' := by
      simp (disch := omega) only [Nat.digitChar, if_neg]
    rw [hstar]
    decide

theorem controlFree_toDigits (hb : 1 < b) (n : Nat) : ControlFree (Nat.toDigits b n) := by
  induction n using Nat.strongRecOn with
  | ind n ih =>
    rw [Nat.toDigits_eq_if hb]
    split
    · exact List.forall_mem_singleton.mpr (not_isControl_digitChar n)
    · next hn =>
      have hhigh := ih (n / b) (Nat.div_lt_self (by omega) hb)
      exact controlFree_append.mpr
        ⟨hhigh, List.forall_mem_singleton.mpr (not_isControl_digitChar _)⟩

theorem controlFree_toString (n : Nat) : ControlFree (toString n).toList := by
  rw [Nat.toString_eq_repr, Nat.toList_repr]
  exact controlFree_toDigits (by decide) n

theorem Text.isUnprintable_of_isControl (h : IsControl c) : isUnprintable c = true := by
  rcases h with h | h
  · exact isUnprintable_of_lt h
  · exact List.any_eq_true.mpr
      ⟨(0x7F, 0xA0), List.mem_cons_of_mem _ List.mem_cons_self, by simp [h]⟩

theorem controlFree_escape (hmark : ¬ IsControl mark) (c : Char) :
    ControlFree (Text.escape mark c) := by
  unfold Text.escape
  iterate 4
    split
    · decide
  split
  · next h =>
    rcases h with rfl | rfl
    · decide
    · simp [ControlFree, hmark, show ¬ IsControl '\\' by decide]
  split
  · have hdigits := controlFree_toDigits (b := 16) (by decide) c.toNat
    exact controlFree_append.mpr ⟨controlFree_append.mpr ⟨by decide, hdigits⟩, by decide⟩
  · next h =>
    refine List.forall_mem_singleton.mpr fun hcontrol => h ?_
    rw [Text.isUnprintable_of_isControl hcontrol, Bool.or_true]

theorem controlFree_quotedChar (c : Char) : ControlFree (Text.quotedChar c).toList := by
  have hquote : ControlFree ['\''] := by decide
  have hescape : ControlFree (Text.escape '\'' c) := controlFree_escape (by decide) c
  rw [Text.quotedChar, String.toList_ofList]
  simp only [controlFree_append, hquote, hescape, and_self]

end ScriptLex
