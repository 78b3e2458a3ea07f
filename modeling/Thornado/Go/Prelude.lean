import Thornado.Rust.Prelude

/-!
# The Go standard library, as far as the gateway uses it

`strings.TrimSpace` and `strconv.Atoi` do on these strings what `trim` and the parsing of a signed
64-bit integer do in Rust: the same white space, the same literals. Times are nanoseconds.
-/

namespace Go

/-- `strings.ToLower`. -/
class UnicodeCase where
  toLower : String → String

/-- The case table restricted to ASCII. -/
@[reducible]
def asciiCase : UnicodeCase where
  toLower := Rust.toAsciiLowercase

/-- `strings.TrimSpace`. -/
def trimSpace (s : String) : String := Rust.trim s

/-- `strings.Split` at a character. -/
def split (s : String) (c : Char) : List String := Rust.split s c

/-- `strconv.Atoi`. -/
def atoi (s : String) : Option Int := Rust.parseSigned 64 s

def second : Int := 10 ^ 9

def minute : Int := 60 * second

def hour : Int := 60 * minute

/-- `Time.Truncate`. -/
def truncate (t d : Int) : Int := t - t % d

theorem lt_truncate_add {d : Int} (hd : 0 < d) (t : Int) : t < truncate t d + d := by
  have hlt : t % d < d := Int.emod_lt_of_pos t hd
  unfold truncate
  omega

theorem truncate_mono {d t u : Int} (hd : 0 < d) (h : t ≤ u) : truncate t d ≤ truncate u d := by
  have ht := Int.mul_ediv_add_emod t d
  have hu := Int.mul_ediv_add_emod u d
  have hmul : d * (t / d) ≤ d * (u / d) :=
    Int.mul_le_mul_of_nonneg_left (Int.ediv_le_ediv hd h) (Int.le_of_lt hd)
  unfold truncate
  omega

theorem truncate_add_mul (t d k : Int) : truncate (t + d * k) d = truncate t d + d * k := by
  unfold truncate
  rw [Int.add_mul_emod_self_left]
  omega

end Go
