/-!
# Numbers in names

Names hold numbers in decimal digits. A number can be read back from its digits, and as a sign is no digit, it is told
apart from what stands before it.
-/

namespace Relay

theorem minus_notMem_toString (n : Nat) : '-' ∉ (toString n).toList := by
  intro h
  rw [Nat.toString_eq_ofList_toDigits, String.toList_ofList] at h
  have hdigit := Nat.isDigit_of_mem_toDigits (by decide) (by decide) h
  simp at hdigit

theorem toString_nat_inj {m n : Nat} (h : toString m = toString n) : m = n := by
  have hdigits := congrArg (fun s : String => Nat.ofDigitChars 10 s.toList 0) h
  simpa [Nat.toString_eq_ofList_toDigits] using hdigits

theorem toString_int_inj {i j : Int} (h : toString i = toString j) : i = j := by
  have hminus : ∀ m n : Nat, toString m ≠ "-" ++ toString n := by
    intro m n heq
    have hmem := minus_notMem_toString m
    rw [heq] at hmem
    simp at hmem
  cases i with
  | ofNat m =>
    cases j with
    | ofNat n => exact congrArg Int.ofNat (toString_nat_inj h)
    | negSucc n => exact absurd h (hminus m (n + 1))
  | negSucc m =>
    cases j with
    | ofNat n => exact absurd h.symm (hminus n (m + 1))
    | negSucc n =>
      have hsigned : "-" ++ toString (m + 1) = "-" ++ toString (n + 1) := h
      have hlist := congrArg String.toList hsigned
      rw [String.toList_append, String.toList_append, List.append_cancel_left_eq, String.toList_inj] at hlist
      have hsucc := toString_nat_inj hlist
      rw [Nat.succ.inj hsucc]

end Relay
