import WorkerPool.Text.Printable

/-!
# Quoted text

A text is shown between double quotes. The quote and the backslash get a backslash before them, the
four common controls have a letter of their own, and every other character that would not be seen
as it is (`isUnprintable`, `isExtending`) is written by its code point. A single quote stays.

* `escape` -- one character;
* `quote` -- a whole text;
* `escape_of_plain` -- a visible ASCII character other than `"` and `\` is written as it is.
-/

namespace WorkerPool.Text

/-- A code point in lower-case hexadecimal digits, between braces after a backslash and a `u`. -/
def codePoint (n : Nat) : String :=
  "\\u\x7b" ++ String.ofList (Nat.toDigits 16 n) ++ "\x7d"

/-- One character inside a quoted text. -/
def escape (c : Char) : String :=
  if c = '\x00' then "\\0"
  else if c = '\t' then "\\t"
  else if c = '\r' then "\\r"
  else if c = '\n' then "\\n"
  else if c = '"' then "\\\""
  else if c = '\\' then "\\\\"
  else if isUnprintable c || isExtending c then codePoint c.toNat
  else c.toString

/-- The text between double quotes. -/
def quote (s : String) : String :=
  "\"" ++ String.join (s.toList.map escape) ++ "\""

theorem isExtending_of_ascii {c : Char} (h : c.toNat < 0x7F) : isExtending c = false := by
  unfold isExtending extending
  rw [Ranges.holds_cons_of_le (by omega)]
  exact decide_eq_false (by omega)

/-- Plain text stays: **a visible ASCII character is written as it is**, the quote and the backslash
    apart. -/
theorem escape_of_plain {c : Char} (lo : 0x20 ≤ c.toNat) (hi : c.toNat < 0x7F)
    (hq : c ≠ '"') (hb : c ≠ '\\') : escape c = c.toString := by
  have control : ∀ d : Char, d.toNat < 0x20 → c ≠ d := by
    rintro d hd rfl
    omega
  simp [escape, control _ (by decide : ('\x00' : Char).toNat < 0x20),
    control _ (by decide : ('\t' : Char).toNat < 0x20),
    control _ (by decide : ('\r' : Char).toNat < 0x20),
    control _ (by decide : ('\n' : Char).toNat < 0x20), hq, hb,
    printable_of_ascii_graphic lo hi, isExtending_of_ascii hi]

end WorkerPool.Text
