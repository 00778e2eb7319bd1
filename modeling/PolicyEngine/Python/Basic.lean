import PolicyEngine.Go.Encoding
import PolicyEngine.Go.Map
import PolicyEngine.Go.Strconv

namespace PolicyEngine.Python

open PolicyEngine.Go

/-- A Python object as the protocol helpers see it: a `str` of Unicode scalar
values, an `int`, or an object of another type, known by its `str`. -/
inductive Value
  | str (text : String)
  | int (number : ℤ)
  | other (text : String)
deriving DecidableEq

abbrev Dict := Map Value

def formatInt (n : ℤ) : String :=
  if n < 0 then "-" ++ Strconv.formatNat n.natAbs else Strconv.formatNat n.natAbs

def Value.toStr : Value → String
  | .str text => text
  | .int number => formatInt number
  | .other text => text

def Dict.item (values : Dict) (key : String) : Except String Value :=
  match values.lookup key with
  | some value => .ok value
  | none => .error ("KeyError: " ++ key)

/-- `str.strip`, for the characters that Python counts as space. -/
def strip (space : Char → Bool) (text : String) : String :=
  String.ofList ((text.toList.dropWhile space).rdropWhile space)

def isSpace (c : Char) : Bool := Text.isSpace c || (0x1C ≤ c.toNat && c.toNat ≤ 0x1F)

/-- `struct.pack(">I", len(encoded)) + encoded`. -/
def packText (text : String) : Except String (List UInt8) :=
  if (Text.bytes text).length < 2 ^ 32 then .ok (Encoding.lengthPrefixed (Text.bytes text))
  else .error "struct.error: 'I' format requires 0 <= number <= 4294967295"

/-- `struct.pack(">q", number)`. -/
def packInt64 (number : ℤ) : Except String (List UInt8) :=
  if -2 ^ 63 ≤ number ∧ number < 2 ^ 63 then .ok (Encoding.beInt64 (Int64.ofInt number))
  else .error "struct.error: int too large to convert"

theorem strip_eq_self_mono {space space' : Char → Bool} (h : ∀ c, space' c = true → space c = true)
    {text : String} (hstrip : strip space text = text) : strip space' text = text := by
  have hcs : (text.toList.dropWhile space).rdropWhile space = text.toList := by
    rw [← String.toList_ofList (l := List.rdropWhile _ _)]
    exact congrArg String.toList hstrip
  have hlen : text.toList.length ≤ (text.toList.dropWhile space).length := by
    calc
      text.toList.length = ((text.toList.dropWhile space).rdropWhile space).length := by rw [hcs]
      _ ≤ (text.toList.dropWhile space).length := ( List.rdropWhile_prefix space _).length_le
  have hfront : text.toList.dropWhile space = text.toList :=
    (List.dropWhile_suffix space).eq_of_length_le hlen
  rw [hfront] at hcs
  have hfront' : text.toList.dropWhile space' = text.toList := by
    rw [List.dropWhile_eq_self_iff] at hfront ⊢
    intro hl hspace
    exact hfront hl (h _ hspace)
  have hback' : text.toList.rdropWhile space' = text.toList := by
    rw [List.rdropWhile_eq_self_iff] at hcs ⊢
    intro hl hspace
    exact hcs hl (h _ hspace)
  rw [strip, hfront', hback', String.ofList_toList]

theorem strip_eq_empty_iff {space : Char → Bool} {text : String} :
    strip space text = "" ↔ ∀ c ∈ text.toList, space c = true := by
  rw [strip, String.ofList_eq_empty_iff, List.rdropWhile_eq_nil_iff]
  constructor
  · intro h
    refine List.dropWhile_eq_nil_iff.mp ?_
    by_contra hne
    -- The first character that is kept is no space, and all that are kept are.
    exact List.dropWhile_get_zero_not space text.toList (List.length_pos_iff.mpr hne)
      (h _ (List.get_mem _ _))
  · intro h c hc
    exact h c ((List.dropWhile_sublist space).subset hc)

theorem formatInt_toInt (n : Int64) : formatInt n.toInt = Strconv.formatInt n := rfl

theorem packText_eq_ok {text : String} {packed : List UInt8} :
    packText text = .ok packed ↔
      text.utf8ByteSize < 2 ^ 32 ∧ Encoding.lengthPrefixed (Text.bytes text) = packed := by
  unfold packText
  split_ifs with h
  · exact ⟨fun heq ↦ ⟨h, Except.ok.inj heq⟩, fun heq ↦ by rw [heq.2]⟩
  · exact ⟨nofun, fun heq ↦ absurd heq.1 h⟩

theorem packInt64_eq_ok {number : ℤ} {packed : List UInt8} :
    packInt64 number = .ok packed ↔
      (Int64.ofInt number).toInt = number ∧ Encoding.beInt64 (Int64.ofInt number) = packed := by
  have hrange : -2 ^ 63 ≤ number ∧ number < 2 ^ 63 ↔ (Int64.ofInt number).toInt = number := by
    constructor
    · rintro ⟨hlo, hhi⟩
      exact Int64.toInt_ofInt_of_le hlo hhi
    · intro h
      have hlo := Int64.le_toInt (Int64.ofInt number)
      have hhi := Int64.toInt_lt (Int64.ofInt number)
      rw [h] at hlo hhi
      exact ⟨hlo, hhi⟩
  unfold packInt64
  split_ifs with h
  · exact ⟨fun heq ↦ ⟨hrange.mp h, Except.ok.inj heq⟩, fun heq ↦ by rw [heq.2]⟩
  · exact ⟨nofun, fun heq ↦ absurd (hrange.mpr heq.1) h⟩

end PolicyEngine.Python
