/-! Blank space and what is cut out by it: trimming a text at its ends and cutting it into words.
Blank characters are those with the Unicode property White_Space. -/
namespace Weaving.Text

def isBlank (c : Char) : Bool :=
  (9 ≤ c.toNat && c.toNat ≤ 13) || c.toNat = 32 || c.toNat = 0x85 || c.toNat = 0xa0 ||
    c.toNat = 0x1680 || (0x2000 ≤ c.toNat && c.toNat ≤ 0x200a) || c.toNat = 0x2028 ||
    c.toNat = 0x2029 || c.toNat = 0x202f || c.toNat = 0x205f || c.toNat = 0x3000

def trimLeft (s : List Char) : List Char := s.dropWhile isBlank

def trimRight (s : List Char) : List Char := (s.reverse.dropWhile isBlank).reverse

def trim (s : List Char) : List Char := trimRight (trimLeft s)

theorem length_trimLeft_le (s : List Char) : (trimLeft s).length ≤ s.length :=
  (List.dropWhile_sublist _).length_le

@[simp] theorem trimLeft_trimLeft (s : List Char) : trimLeft (trimLeft s) = trimLeft s := by
  induction s with
  | nil => rfl
  | cons c s ih => by_cases h : isBlank c <;> simp_all [trimLeft]

/-- The maximal runs of characters that are not blank, in order. -/
def words : List Char → List (List Char)
  | [] => []
  | c :: s =>
    if isBlank c then words s
    else match s with
      | [] => [[c]]
      | d :: _ =>
        if isBlank d then [c] :: words s
        else match words s with
          | [] => [[c]]
          | w :: ws => (c :: w) :: ws

example : words "  a bc\td ".toList = [['a'], ['b', 'c'], ['d']] := by decide

end Weaving.Text
