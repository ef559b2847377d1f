import ScriptLex.Text.Quoted
import ScriptLex.Toml.Reader.Text

/-!
# Quoted text is read back

The escapes of quoted text form a code in which no character's form starts the
form of another, so the text between the quotes can be taken off again
character by character.
-/

namespace ScriptLex

-- ---------------------------------------------------------------------------
-- Hexadecimal numbers
-- ---------------------------------------------------------------------------

namespace Toml.Reader

def IsHexOf (digits : List Char) (n : Nat) : Prop :=
  ∃ values, digits.mapM hexValue? = some values ∧ values.foldl (fun n d => 16 * n + d) 0 = n

theorem hexValue?_digitChar : ∀ d < 16, hexValue? (Nat.digitChar d) = some d := by
  decide

theorem isHexOf_toDigits (n : Nat) : IsHexOf (Nat.toDigits 16 n) n := by
  induction n using Nat.strongRecOn with
  | ind n ih =>
    rw [Nat.toDigits_eq_if (by decide)]
    split
    · next hn => exact ⟨[n], by simp [hexValue?_digitChar n hn], by simp⟩
    · next hn =>
      obtain ⟨values, hvalues, hhigh⟩ := ih (n / 16) (by omega)
      have hlow := hexValue?_digitChar (n % 16) (Nat.mod_lt n (by decide))
      refine ⟨values ++ [n % 16], by simp [hvalues, hlow], ?_⟩
      rw [List.foldl_append, hhigh]
      exact Nat.div_add_mod n 16

theorem IsHexOf.padded (h : IsHexOf digits n) (zeros : Nat) :
    IsHexOf (List.replicate zeros '0' ++ digits) n := by
  obtain ⟨values, hvalues, hn⟩ := h
  have hzero : hexValue? '0' = some 0 := rfl
  induction zeros with
  | zero => exact ⟨values, hvalues, hn⟩
  | succ zeros ih =>
    obtain ⟨more, hmore, hn⟩ := ih
    exact ⟨0 :: more, by simp [List.replicate_succ, hzero, hmore], by simpa using hn⟩

theorem IsHexOf.charOfHex? {c : Char} (h : IsHexOf digits c.toNat) :
    charOfHex? digits = some c := by
  obtain ⟨values, hvalues, hn⟩ := h
  have hvalid : c.toNat.isValidChar := c.valid
  simp [Reader.charOfHex?, hvalues, hn, hvalid]

end Toml.Reader

theorem notMem_toDigits (hc : ∀ d < 16, Nat.digitChar d ≠ c) (n : Nat) :
    c ∉ Nat.toDigits 16 n := by
  induction n using Nat.strongRecOn with
  | ind n ih =>
    rw [Nat.toDigits_eq_if (by decide)]
    split
    · next hn => simpa using Ne.symm (hc n hn)
    · next hn =>
      have hlow := hc (n % 16) (Nat.mod_lt n (by decide))
      simp [ih (n / 16) (by omega), Ne.symm hlow]

-- ---------------------------------------------------------------------------
-- Escapes
-- ---------------------------------------------------------------------------

namespace Text

/-- The first character of text between quotes, and the text behind its form. -/
def unescape? : List Char → Option (Char × List Char)
  | '\\' :: '0' :: cs => some ('\x00', cs)
  | '\\' :: 't' :: cs => some ('\t', cs)
  | '\\' :: 'r' :: cs => some ('\r', cs)
  | '\\' :: 'n' :: cs => some ('\n', cs)
  | '\\' :: 'u' :: '\x7b' :: cs =>
    (Toml.Reader.charOfHex? (cs.takeWhile (· != '\x7d'))).map
      (·, (cs.dropWhile (· != '\x7d')).tail)
  | '\\' :: c :: cs => some (c, cs)
  | c :: cs => some (c, cs)
  | [] => none

theorem unescape?_codePoint (c : Char) (rest : List Char) :
    unescape? (codePoint c ++ rest) = some (c, rest) := by
  have hbrace : '\x7d' ∉ Nat.toDigits 16 c.toNat := notMem_toDigits (by decide) c.toNat
  have hall : ∀ d ∈ Nat.toDigits 16 c.toNat, (d != '\x7d') = true := fun d hd => by
    rw [bne_iff_ne]
    rintro rfl
    exact hbrace hd
  have hchar := (Toml.Reader.isHexOf_toDigits c.toNat).charOfHex?
  simp [unescape?, codePoint, List.takeWhile_append_of_pos hall,
    List.dropWhile_append_of_pos hall, hchar]

theorem unescape?_escape (c : Char) (rest : List Char) :
    unescape? (escape '\"' c ++ rest) = some (c, rest) := by
  unfold escape
  split
  · next h => simp [h, unescape?]
  split
  · next h => simp [h, unescape?]
  split
  · next h => simp [h, unescape?]
  split
  · next h => simp [h, unescape?]
  split
  · next h => rcases h with rfl | rfl <;> rfl
  next hc =>
  split
  · exact unescape?_codePoint c rest
  · have hslash : c ≠ '\\' := fun h => hc (.inl h)
    simp [unescape?, hslash]

theorem unescape?_flatMap (cs : List Char) :
    unescape? (cs.flatMap (escape '\"')) =
      cs.head?.map (·, cs.tail.flatMap (escape '\"')) := by
  cases cs with
  | nil => rfl
  | cons c cs => exact unescape?_escape c _

/-- Different texts have different forms, whatever escapes they hold themselves. -/
theorem quoted_injective : Function.Injective quoted := by
  have hflat (xs ys : List Char)
      (h : xs.flatMap (escape '\"') = ys.flatMap (escape '\"')) : xs = ys := by
    induction xs generalizing ys with
    | nil =>
      have hhead := unescape?_flatMap ys
      rw [← h] at hhead
      cases ys with
      | nil => rfl
      | cons y ys => contradiction
    | cons x xs ih =>
      have hhead := unescape?_flatMap ys
      rw [← h, unescape?_flatMap] at hhead
      cases ys with
      | nil => contradiction
      | cons y ys =>
        obtain ⟨rfl, htail⟩ : x = y ∧ _ := by simpa using hhead
        rw [ih ys htail]
  intro s t h
  rw [quoted, quoted, String.ofList_inj, List.append_cancel_right_eq,
    List.append_cancel_left_eq] at h
  exact String.toList_inj.mp (hflat _ _ h)

end Text
end ScriptLex
