import Gatehouse.Net.Address
import Gatehouse.Proofs.Text.Decimal

/-!
Which texts spell internet addresses.

The texts are described as they are put together: digits make octets and groups, octets with dots between
them make addresses of the first family (`SpellsV4`), and groups with colons between them, around one gap
at most, make those of the second (`SpellsV6`). How liberal the texts are is a matter of their form. No
text spells addresses of both families, and none has a slash.
-/

namespace Gatehouse.Address

open Text

variable {form : Form} {first dotted : Bool} {cs : List Char} {ns : List Nat} {a : Address}

/-! ### The grammar -/

/-- An octet: up to three digits. Unless octets may be padded, one that begins with a zero is zero itself. -/
structure Octet (form : Form) (cs : List Char) (n : Nat) : Prop where
  decimal : Decimal cs n
  short : cs.length ≤ 3
  small : n < 256
  plain : form.paddedOctets = false → cs.head? = some '0' → cs = ['0']

/-- A number of octets, each with a dot in front. -/
inductive DottedOctets (form : Form) : Nat → List Char → List Nat → Prop where
  | nil : DottedOctets form 0 [] []
  | cons {count n : Nat} {cs later : List Char} {ns : List Nat} (octet : Octet form cs n)
      (dotted : DottedOctets form count later ns) :
      DottedOctets form (count + 1) ('.' :: (cs ++ later)) (n :: ns)

/-- Four octets with dots between them. -/
inductive Octets (form : Form) : List Char → List Nat → Prop where
  | of {cs later : List Char} {n : Nat} {ns : List Nat} (octet : Octet form cs n)
      (dotted : DottedOctets form 3 later ns) : Octets form (cs ++ later) (n :: ns)

/-- A hexadecimal digit of either case. -/
def isHexDigit (c : Char) : Bool := (hexDigit? c).isSome

/-- The value of a row of hexadecimal digits. -/
def hexValue (cs : List Char) : Nat := ofDigits 16 (cs.filterMap fun c => (hexDigit? c).map Fin.val)

/-- A group: one to four hexadecimal digits. -/
structure Group (cs : List Char) (n : Nat) : Prop where
  digits : ∀ c ∈ cs, isHexDigit c = true
  given : 1 ≤ cs.length
  short : cs.length ≤ 4
  value : hexValue cs = n

/-- What stands in front of a group. -/
def lead (first : Bool) : List Char := if first then [] else [':']

/-- Groups with colons between them, and in front of them unless they are the `first` ones. The last two may be
written as four octets (`dotted`). -/
inductive Groups (form : Form) : Bool → List Char → List Nat → Bool → Prop where
  | nil {first : Bool} : Groups form first [] [] false
  | octets {first : Bool} {cs : List Char} {a b c d : Nat} (octets : Octets form cs [a, b, c, d]) :
      Groups form first (lead first ++ cs) [256 * a + b, 256 * c + d] true
  | cons {first dotted : Bool} {cs later : List Char} {n : Nat} {ns : List Nat} (group : Group cs n)
      (groups : Groups form false later ns dotted) :
      Groups form first (lead first ++ cs ++ later) (n :: ns) dotted

/-- The address of four octets. -/
def ofOctets (octets : List Nat) : Address := .v4 (BitVec.ofNat 32 (ofDigits 256 octets))

/-- The address of eight groups. -/
def ofGroups (groups : List Nat) : Address := .v6 (BitVec.ofNat 128 (ofDigits 65536 groups))

/-- The number of groups that there may be around a gap. -/
def Form.room (form : Form) : Nat := if form.emptyGap then 8 else 7

/-- A text of the first family. -/
inductive SpellsV4 (form : Form) : List Char → Address → Prop where
  | octets {cs : List Char} {ns : List Nat} (octets : Octets form cs ns) : SpellsV4 form cs (ofOctets ns)

/-- A text of the second family: eight groups, or fewer, with a gap between them in the place of those that are
missing, which are zero. -/
inductive SpellsV6 (form : Form) : List Char → Address → Prop where
  | full {cs : List Char} {ns : List Nat} {dotted : Bool} (groups : Groups form true cs ns dotted)
      (eight : ns.length = 8) : SpellsV6 form cs (ofGroups ns)
  | gap {cs cs' : List Char} {ns ns' : List Nat} {dotted : Bool} (head : Groups form true cs ns false)
      (tail : Groups form true cs' ns' dotted) (few : ns.length < 8)
      (room : ns.length + ns'.length ≤ form.room) :
      SpellsV6 form (cs ++ ':' :: ':' :: cs')
        (ofGroups (ns ++ List.replicate (8 - ns.length - ns'.length) 0 ++ ns'))

/-- A text of either family. -/
def Spells (form : Form) (cs : List Char) (a : Address) : Prop := SpellsV4 form cs a ∨ SpellsV6 form cs a

/-! ### Characters of addresses -/

theorem isHexDigit_of_isDigit {c : Char} (digit : c.isDigit = true) : isHexDigit c = true := by
  simp only [Char.isDigit, Bool.and_eq_true, decide_eq_true_eq] at digit
  have range : '0' ≤ c ∧ c ≤ '9' := digit
  simp [isHexDigit, hexDigit?, range]

theorem DottedOctets.chars {count : Nat} (dotted : DottedOctets form count cs ns) :
    ∀ c ∈ cs, c.isDigit = true ∨ c = '.' := by
  induction dotted with
  | nil => exact nofun
  | cons octet _ ih =>
      intro c mem
      rcases List.mem_cons.mp mem with dot | mem
      · exact Or.inr dot
      rcases List.mem_append.mp mem with here | later
      · exact Or.inl (octet.decimal.digits c here)
      · exact ih c later

theorem Octets.chars (octets : Octets form cs ns) : ∀ c ∈ cs, c.isDigit = true ∨ c = '.' := by
  obtain ⟨octet, dotted⟩ := octets
  intro c mem
  rcases List.mem_append.mp mem with here | later
  · exact Or.inl (octet.decimal.digits c here)
  · exact dotted.chars c later

theorem Groups.chars (groups : Groups form first cs ns dotted) :
    ∀ c ∈ cs, isHexDigit c = true ∨ c = '.' ∨ c = ':' := by
  have leading {first : Bool} {c : Char} (mem : c ∈ lead first) : c = ':' := by
    cases first with
    | true => cases mem
    | false => exact List.mem_singleton.mp mem
  induction groups with
  | nil => exact nofun
  | octets octets =>
      intro c mem
      rcases List.mem_append.mp mem with front | here
      · exact Or.inr (Or.inr (leading front))
      · exact (octets.chars c here).imp isHexDigit_of_isDigit Or.inl
  | cons group _ ih =>
      intro c mem
      rcases List.mem_append.mp mem with mem | later
      · rcases List.mem_append.mp mem with front | here
        · exact Or.inr (Or.inr (leading front))
        · exact Or.inl (group.digits c here)
      · exact ih c later

/-- More groups than those of four octets have a colon between them. -/
theorem Groups.colon_mem (groups : Groups form first cs ns dotted) (many : 2 < ns.length) : ':' ∈ cs := by
  cases groups with
  | nil => cases many
  | octets => exact absurd many (lt_irrefl 2)
  | cons _ groups =>
      cases groups with
      | nil => exact absurd many (by simp)
      | octets => simp [lead]
      | cons => simp [lead]

/-- A text of the first family has digits and dots, no colon. -/
theorem SpellsV4.colon_notMem (spells : SpellsV4 form cs a) : ':' ∉ cs := by
  obtain ⟨octets⟩ := spells
  intro mem
  exact absurd (octets.chars _ mem) (by decide)

theorem SpellsV6.colon_mem (spells : SpellsV6 form cs a) : ':' ∈ cs := by
  cases spells with
  | full groups eight => exact groups.colon_mem (by omega)
  | gap => simp

/-- No address has a slash. -/
theorem Spells.slash_notMem (spells : Spells form cs a) : '/' ∉ cs := by
  intro mem
  rcases spells with ⟨⟨octets⟩⟩ | spells
  · exact absurd (octets.chars _ mem) (by decide)
  · cases spells with
    | full groups _ => exact absurd (groups.chars _ mem) (by decide)
    | gap head tail =>
        rcases List.mem_append.mp mem with front | mem
        · exact absurd (head.chars _ front) (by decide)
        rcases List.mem_cons.mp mem with colon | mem
        · exact absurd colon (by decide)
        rcases List.mem_cons.mp mem with colon | back
        · exact absurd colon (by decide)
        · exact absurd (tail.chars _ back) (by decide)

end Gatehouse.Address
