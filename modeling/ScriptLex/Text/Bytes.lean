/-!
# Byte offsets in text

Text is read character by character, while offsets count the bytes of its
UTF-8 form. Cutting text at an offset succeeds only between two characters.
-/

namespace ScriptLex.Text

def byteLength : List Char → Nat
  | [] => 0
  | c :: cs => c.utf8Size + byteLength cs

def splitAtByte? : Nat → List Char → Option (List Char × List Char)
  | 0, cs => some ([], cs)
  | _, [] => none
  | n, c :: cs =>
    if c.utf8Size ≤ n then
      (splitAtByte? (n - c.utf8Size) cs).map fun halves => (c :: halves.1, halves.2)
    else
      none

def slice? (start stop : Nat) (cs : List Char) : Option (List Char) :=
  if start ≤ stop then
    (splitAtByte? start cs).bind fun halves =>
      (splitAtByte? (stop - start) halves.2).map (·.1)
  else
    none

@[simp] theorem byteLength_nil : byteLength [] = 0 := rfl

@[simp] theorem byteLength_cons (c : Char) (cs : List Char) :
    byteLength (c :: cs) = c.utf8Size + byteLength cs := rfl

@[simp] theorem byteLength_append (xs ys : List Char) :
    byteLength (xs ++ ys) = byteLength xs + byteLength ys := by
  induction xs with
  | nil => simp
  | cons x xs ih => simp [ih, Nat.add_assoc]

@[simp] theorem splitAtByte?_zero (cs : List Char) : splitAtByte? 0 cs = some ([], cs) := by
  cases cs <;> rfl

theorem splitAtByte?_byteLength (xs ys : List Char) :
    splitAtByte? (byteLength xs) (xs ++ ys) = some (xs, ys) := by
  induction xs with
  | nil => simp
  | cons x xs ih =>
    have hx := x.utf8Size_pos
    obtain ⟨n, hn⟩ := Nat.exists_eq_succ_of_ne_zero (by omega : x.utf8Size + byteLength xs ≠ 0)
    rw [byteLength_cons, List.cons_append, hn, splitAtByte?, ← hn]
    · simp [ih]
    · omega

/-- A cut loses nothing, and the first half fills exactly the offset's bytes. -/
theorem eq_of_splitAtByte? {n : Nat} {cs xs ys : List Char}
    (h : splitAtByte? n cs = some (xs, ys)) : cs = xs ++ ys ∧ byteLength xs = n := by
  induction cs generalizing n xs with
  | nil =>
    cases n with
    | zero => simp_all
    | succ n => simp [splitAtByte?] at h
  | cons c cs ih =>
    cases n with
    | zero =>
      simp only [splitAtByte?_zero, Option.some.injEq, Prod.mk.injEq] at h
      simp [← h.1, ← h.2]
    | succ n =>
      rw [splitAtByte?] at h
      · split at h
        · next hc =>
          obtain ⟨halves, hs, he⟩ := Option.map_eq_some_iff.1 h
          obtain ⟨rfl, rfl⟩ := Prod.mk.injEq .. ▸ he
          obtain ⟨hcs, hlen⟩ := ih hs
          exact ⟨by rw [hcs]; simp, by simp [hlen]; omega⟩
        · contradiction
      · omega

theorem splitAtByte?_eq_some_iff {n : Nat} {cs xs ys : List Char} :
    splitAtByte? n cs = some (xs, ys) ↔ cs = xs ++ ys ∧ byteLength xs = n :=
  ⟨eq_of_splitAtByte?, fun ⟨hcs, hn⟩ => hcs ▸ hn ▸ splitAtByte?_byteLength xs ys⟩

theorem slice?_append (before middle after : List Char) :
    slice? (byteLength before) (byteLength before + byteLength middle)
      (before ++ (middle ++ after)) = some middle := by
  simp [slice?, splitAtByte?_byteLength]

end ScriptLex.Text
