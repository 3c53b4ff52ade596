import Mathlib.Data.List.Basic
import Mathlib.Tactic.Common

/-!
# Base64url without padding

Three bytes are written as four digits of the alphabet; one or two bytes that are left as two or
three.  A reader skips line breaks, and does not look at the bits of the last digit that no byte
has: it accepts more strings than are ever written.

## Main definitions

* `Base64url.digits`, `Base64url.bytes` — bytes as numbers below 64, and back.
* `Base64url.encodeToString`, `Base64url.decodeString` — the same over the alphabet.

## Main results

* `decodeString_encodeToString` — **what was written is read back.**
* `mem_alphabet_of_encodeToString` — only digits are written, so that a sign that is none can
  separate two such strings.
-/

namespace Hivebook
namespace Base64url

/-- The digits, in order, as bytes of ASCII. -/
def alphabet : List UInt8 :=
  "ABCDEFGHIJKLMNOPQRSTUVWXYZabcdefghijklmnopqrstuvwxyz0123456789-_".toList.map fun c =>
    UInt8.ofNat c.toNat

/-- The digit of a number below 64. -/
def digit (n : ℕ) : UInt8 := alphabet.getD n 0

/-- The number of a digit. -/
def value (c : UInt8) : Option ℕ := alphabet.findIdx? fun d => decide (d = c)

theorem value_digit : ∀ n < 64, value (digit n) = some n := by
  decide

theorem digit_mem : ∀ n < 64, digit n ∈ alphabet := by
  decide

/-! ### Bytes and numbers below 64 -/

/-- Bytes, six bits at a time. -/
def digits : List UInt8 → List ℕ
  | [] => []
  | [a] => [a.toNat / 4, a.toNat % 4 * 16]
  | [a, b] => [a.toNat / 4, a.toNat % 4 * 16 + b.toNat / 16, b.toNat % 16 * 4]
  | a :: b :: c :: l =>
      a.toNat / 4 :: (a.toNat % 4 * 16 + b.toNat / 16) :: (b.toNat % 16 * 4 + c.toNat / 64) ::
        (c.toNat % 64) :: digits l

/-- The bytes of a list of numbers; one number alone is no byte. -/
def bytes : List ℕ → Option (List UInt8)
  | [] => some []
  | [_] => none
  | [p, q] => some [UInt8.ofNat (p * 4 + q / 16)]
  | [p, q, r] => some [UInt8.ofNat (p * 4 + q / 16), UInt8.ofNat (q % 16 * 16 + r / 4)]
  | p :: q :: r :: s :: l =>
      (bytes l).map fun bs =>
        UInt8.ofNat (p * 4 + q / 16) :: UInt8.ofNat (q % 16 * 16 + r / 4) ::
          UInt8.ofNat (r % 4 * 64 + s) :: bs

/-- A byte from its number, however that is computed. -/
theorem ofNat_eq {a : UInt8} {n : ℕ} (h : n = a.toNat) : UInt8.ofNat n = a := by
  rw [h, UInt8.ofNat_toNat]

theorem bytes_digits (l : List UInt8) : bytes (digits l) = some l := by
  induction l using digits.induct with
  | case1 => rfl
  | case2 a =>
    have ha := a.toNat_lt
    have hfirst : a.toNat / 4 * 4 + a.toNat % 4 * 16 / 16 = a.toNat := by omega
    rw [digits, bytes, ofNat_eq hfirst]
  | case3 a b =>
    have hb := b.toNat_lt
    have hfirst : a.toNat / 4 * 4 + (a.toNat % 4 * 16 + b.toNat / 16) / 16 = a.toNat := by omega
    have hsecond : (a.toNat % 4 * 16 + b.toNat / 16) % 16 * 16 + b.toNat % 16 * 4 / 4 =
        b.toNat := by
      omega
    rw [digits, bytes, ofNat_eq hfirst, ofNat_eq hsecond]
  | case4 a b c l ih =>
    have hb := b.toNat_lt
    have hc := c.toNat_lt
    have hfirst : a.toNat / 4 * 4 + (a.toNat % 4 * 16 + b.toNat / 16) / 16 = a.toNat := by omega
    have hsecond : (a.toNat % 4 * 16 + b.toNat / 16) % 16 * 16 +
        (b.toNat % 16 * 4 + c.toNat / 64) / 4 = b.toNat := by omega
    have hthird : (b.toNat % 16 * 4 + c.toNat / 64) % 4 * 64 + c.toNat % 64 = c.toNat := by omega
    rw [digits, bytes, ih, ofNat_eq hfirst, ofNat_eq hsecond, ofNat_eq hthird]
    rfl

theorem digits_lt (l : List UInt8) : ∀ n ∈ digits l, n < 64 := by
  induction l using digits.induct with
  | case1 => simp [digits]
  | case2 a =>
    have ha := a.toNat_lt
    simp only [digits, List.mem_cons, List.not_mem_nil, or_false]
    omega
  | case3 a b =>
    have ha := a.toNat_lt
    have hb := b.toNat_lt
    simp only [digits, List.mem_cons, List.not_mem_nil, or_false]
    omega
  | case4 a b c l ih =>
    have ha := a.toNat_lt
    have hb := b.toNat_lt
    have hc := c.toNat_lt
    intro n hn
    simp only [digits, List.mem_cons] at hn
    rcases hn with rfl | rfl | rfl | rfl | hn
    · omega
    · omega
    · omega
    · omega
    · exact ih n hn

/-! ### Strings, as bytes -/

/-- `RawURLEncoding.EncodeToString`. -/
def encodeToString (l : List UInt8) : List UInt8 := (digits l).map digit

/-- A line break: `\n` or `\r`. -/
def isBreak (c : UInt8) : Bool := c == 10 || c == 13

/-- `RawURLEncoding.DecodeString`. -/
def decodeString (s : List UInt8) : Option (List UInt8) :=
  ((s.filter fun c => !isBreak c).mapM value).bind bytes

theorem mem_alphabet_of_encodeToString {l : List UInt8} {c : UInt8}
    (h : c ∈ encodeToString l) : c ∈ alphabet := by
  obtain ⟨n, hn, rfl⟩ := List.mem_map.mp h
  exact digit_mem n (digits_lt l n hn)

/-- What every digit satisfies holds of what is written. -/
theorem forall_mem_encodeToString {P : UInt8 → Prop} (hP : ∀ c ∈ alphabet, P c) (l : List UInt8) :
    ∀ c ∈ encodeToString l, P c :=
  fun c hc => hP c (mem_alphabet_of_encodeToString hc)

theorem mapM_value_digit {ns : List ℕ} (h : ∀ n ∈ ns, n < 64) :
    (ns.map digit).mapM value = some ns := by
  induction ns with
  | nil => rfl
  | cons n ns ih =>
    have hn := value_digit n (h n List.mem_cons_self)
    have hns := ih fun m hm => h m (List.mem_cons_of_mem _ hm)
    rw [List.map_cons, List.mapM_cons, hn, hns]
    rfl

/-- **What was written is read back.** -/
theorem decodeString_encodeToString (l : List UInt8) :
    decodeString (encodeToString l) = some l := by
  -- no digit is a line break
  have hall : ∀ c ∈ encodeToString l, (!isBreak c) = true :=
    forall_mem_encodeToString (by decide +kernel) l
  have hvalues := mapM_value_digit (digits_lt l)
  rw [decodeString, List.filter_eq_self.mpr hall, encodeToString, hvalues, Option.bind_some,
    bytes_digits]

end Base64url
end Hivebook
