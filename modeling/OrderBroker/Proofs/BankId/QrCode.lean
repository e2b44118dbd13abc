import OrderBroker.BankId.Order
import OrderBroker.Proofs.Text.Digits
import OrderBroker.Proofs.Text.Parts

/-!
# What a code to scan tells

The code of an order ends in a digest of fixed length, and the seconds in front of it have no point
in them. So a code is read from its end, whatever points and digits its start token has: it tells
the start token and the second (`qrCode_tells`). What the digest is of does not matter.
-/

namespace OrderBroker.BankId

section
variable {token token' : String} {seconds seconds' : Nat}

/-- A code tells its start token and its second, whatever the digest at its end is. -/
theorem eq_of_code_eq {x x' : Crypto.Digest}
    (heq : "bankid." ++ token ++ "." ++ Text.decimal seconds ++ "." ++ x.hex =
      "bankid." ++ token' ++ "." ++ Text.decimal seconds' ++ "." ++ x'.hex) :
    token = token' ∧ seconds = seconds' := by
  have hchars : (("bankid.".toList ++ token.toList) ++ '.' :: Nat.toDigits 10 seconds) ++
        '.' :: x.hexChars =
      (("bankid.".toList ++ token'.toList) ++ '.' :: Nat.toDigits 10 seconds') ++
        '.' :: x'.hexChars := by
    simpa [Text.decimal, Crypto.Digest.hex] using congrArg String.toList heq
  have hlength : ('.' :: x.hexChars).length = ('.' :: x'.hexChars).length := by
    rw [List.length_cons, List.length_cons, x.length_hexChars, x'.length_hexChars]
  obtain ⟨hfront, -⟩ := List.append_inj' hchars hlength
  obtain ⟨htoken, hdigits⟩ :=
    Text.cut_at_last (Text.not_mem_toDigits (.inl rfl) seconds).1
      (Text.not_mem_toDigits (.inl rfl) seconds').1 hfront
  refine ⟨String.toList_inj.1 (List.append_cancel_left htoken), ?_⟩
  calc
    seconds = Nat.ofDigitChars 10 (Nat.toDigits 10 seconds) 0 :=
      Nat.ofDigitChars_ten_toDigits.symm
    _ = Nat.ofDigitChars 10 (Nat.toDigits 10 seconds') 0 := by rw [hdigits]
    _ = seconds' := Nat.ofDigitChars_ten_toDigits

end

/-- **A code to scan tells its start token and its second.** Two codes are the same only for one
start token and one second, and the codes of one order differ from second to second. -/
theorem qrCode_tells :
    (∀ (token token' secret secret' : String) (seconds seconds' : Nat),
      qrCode token secret seconds = qrCode token' secret' seconds' →
      token = token' ∧ seconds = seconds') ∧
    ∀ o : StartedOrder, Function.Injective o.qrCode := by
  refine ⟨fun token token' secret secret' seconds seconds' heq => ?_,
    fun o seconds seconds' heq => ?_⟩
  · exact eq_of_code_eq heq
  · exact (eq_of_code_eq heq).2

/-- A code does not tell its start secret: one that is longer by a zero byte makes the same code. -/
theorem longer_secret_same_code :
    let token := "67.df.3917"
    "s" ≠ "s\x00" ∧ qrCode token "s" 7 = qrCode token "s\x00" 7 ∧ (token = token ∧ 7 = 7) := by
  have hkey : Crypto.hmacKey "s".toUTF8 = Crypto.hmacKey "s\x00".toUTF8 := by decide +kernel
  have hcode : qrCode "67.df.3917" "s" 7 = qrCode "67.df.3917" "s\x00" 7 := by
    simp only [qrCode, Crypto.hmacSha256, hkey]
  exact ⟨by decide, hcode, qrCode_tells.1 _ _ _ _ _ _ hcode⟩

end OrderBroker.BankId
