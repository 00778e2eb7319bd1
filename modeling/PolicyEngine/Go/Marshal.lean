import Mathlib.Data.List.Sort
import PolicyEngine.Go.Map
import PolicyEngine.Go.Strconv
import PolicyEngine.Json.Writer

namespace PolicyEngine.Go.Marshal

open PolicyEngine.Json

/-- The characters of a document; a byte that starts none is read as U+FFFD. -/
def runes : ℕ → List UInt8 → List Char
  | _, [] | 0, _ => []
  | fuel + 1, b :: bs =>
    match ((b :: bs).take 4).toByteArray.utf8DecodeChar? 0 with
    | some c => c :: runes fuel ((b :: bs).drop c.utf8Size)
    | none => '\uFFFD' :: runes fuel bs

theorem runes_utf8 (cs : List Char) {fuel : ℕ} (h : (Text.utf8 cs).length ≤ fuel) :
    runes fuel (Text.utf8 cs) = cs := by
  induction cs generalizing fuel with
  | nil => cases fuel <;> rfl
  | cons c cs ih =>
    obtain ⟨b, bs, hchar⟩ := List.exists_cons_of_length_pos
      ((String.length_utf8EncodeChar c).symm ▸ c.utf8Size_pos)
    have hcons : Text.utf8 (c :: cs) = b :: (bs ++ Text.utf8 cs) := by
      rw [Text.utf8, List.flatMap_cons, hchar]
      rfl
    have hlen : (String.utf8EncodeChar c).length ≤ 4 := by
      rw [String.length_utf8EncodeChar]
      exact c.utf8Size_le_four
    have hdecode : ((b :: (bs ++ Text.utf8 cs)).take 4).toByteArray.utf8DecodeChar? 0 = some c := by
      rw [← List.cons_append, ← hchar, List.take_append, List.take_of_length_le hlen,
        List.toByteArray_append]
      exact ByteArray.utf8DecodeChar?_utf8EncodeChar_append
    have hdrop : (b :: (bs ++ Text.utf8 cs)).drop c.utf8Size = Text.utf8 cs := by
      rw [← List.cons_append, ← hchar, ← String.length_utf8EncodeChar, List.drop_left]
    rw [hcons, List.length_cons, List.length_append] at h
    obtain ⟨fuel, rfl⟩ : ∃ n, fuel = n + 1 := ⟨fuel - 1, by omega⟩
    rw [hcons, runes, hdecode]
    dsimp only
    rw [hdrop, ih (by omega)]

section Unmarshal

/-- `foldName`, up to characters that fold to no ASCII letter. -/
def foldRune (c : Char) : Char :=
  if c.isLower then c.toUpper
  else if c = '\u017F' then 'S'
  else if c = '\u212A' then 'K'
  else c

def foldName (name : String) : String := String.ofList (name.toList.map foldRune)

/-- The decoders of a struct by the names of its fields. `none` is an error. -/
abbrev Fields (σ : Type) := List (String × (σ → Value → Option σ))

variable {σ : Type}

def findField (fields : Fields σ) (key : String) : Option (σ → Value → Option σ) :=
  (fields.lookup key).or
    ((fields.find? fun field ↦ foldName field.1 == foldName key).map Prod.snd)

def setMember (fields : Fields σ) (s : σ) (m : String × Value) : Option σ :=
  match findField fields m.1 with
  | none => some s
  | some set => set s m.2

/-- `null` leaves everything as it was. A value of the wrong type is an error
in the end, though the decoder goes on after it. -/
def unmarshalStruct (fields : Fields σ) (s : σ) : Value → Option σ
  | .null => some s
  | .obj members => members.foldlM (setMember fields) s
  | _ => none

def unmarshalString (old : String) : Value → Option String
  | .null => some old
  | .str s => some s
  | _ => none

def unmarshalBool (old : Bool) : Value → Option Bool
  | .null => some old
  | .bool b => some b
  | _ => none

def unmarshalInt64 (old : Int64) : Value → Option Int64
  | .null => some old
  | .num literal => Strconv.parseInt literal
  | _ => none

def unmarshalUint64 (old : UInt64) : Value → Option UInt64
  | .null => some old
  | .num literal => Strconv.parseUint literal
  | _ => none

/-- A `map[string]string`. The members go into the map that is there. -/
def unmarshalMap (old : Option (Map String)) : Value → Option (Option (Map String))
  | .null => some none
  | .obj members =>
    (members.foldlM (fun m e ↦ (unmarshalString "" e.2).map (m.insert e.1)) (old.getD ∅)).map some
  | _ => none

theorem unmarshalMap_strings (old : Option (Map String)) (entries : List (String × String)) :
    unmarshalMap old (.obj (entries.map (Prod.map id .str))) =
      some (some (entries.foldl (fun m e ↦ m.insert e.1 e.2) (old.getD ∅))) := by
  have hloop (m : Map String) :
      (entries.map (Prod.map id Value.str)).foldlM
          (fun m e ↦ (unmarshalString "" e.2).map (m.insert e.1)) m =
        some (entries.foldl (fun m e ↦ m.insert e.1 e.2) m) := by
    induction entries generalizing m with
    | nil => rfl
    | cons e _ ih => exact ih (m.insert e.1 e.2)
  rw [unmarshalMap, hloop]
  rfl

/-- A slice of structs. -/
def unmarshalSlice {τ : Type} (item : Value → Option τ) (_ : List τ) : Value → Option (List τ)
  | .null => some []
  | .arr vs => vs.mapM item
  | _ => none

def field {β : Type} (get : σ → β) (set : σ → β → σ) (unmarshal : β → Value → Option β) (s : σ)
    (v : Value) : Option σ :=
  (unmarshal (get s) v).map (set s)

end Unmarshal

section Marshal

/-- How `json.Marshal` writes a character in a string. -/
def jsonChar (c : Char) : List Char :=
  if c = '"' then ['\\', '"']
  else if c = '\\' then ['\\', '\\']
  else if c = '\x08' then ['\\', 'b']
  else if c = '\x0c' then ['\\', 'f']
  else if c = '\n' then ['\\', 'n']
  else if c = '\r' then ['\\', 'r']
  else if c = '\t' then ['\\', 't']
  else if c.toNat < 0x20 ∨ c ∈ ['<', '>', '&'] then
    ['\\', 'u', '0', '0', Nat.digitChar (c.toNat / 16), Nat.digitChar (c.toNat % 16)]
  else if c = '\u2028' then ['\\', 'u', '2', '0', '2', '8']
  else if c = '\u2029' then ['\\', 'u', '2', '0', '2', '9']
  else [c]

theorem hex4_byte {n : ℕ} (h : n < 256) :
    hex4 '0' '0' (Nat.digitChar (n / 16)) (Nat.digitChar (n % 16)) = some n := by
  have hzero : Encoding.hexDigit '0' = some 0 := rfl
  have hhi : Encoding.hexDigit (Nat.digitChar (n / 16)) = some (n / 16) :=
    Encoding.hexDigit_digitChar (by omega)
  have hlo : Encoding.hexDigit (Nat.digitChar (n % 16)) = some (n % 16) :=
    Encoding.hexDigit_digitChar (by omega)
  rw [hex4, hzero, hhi, hlo]
  have hsum : ((0 * 16 + 0) * 16 + n / 16) * 16 + n % 16 = n := by omega
  exact congrArg some hsum

theorem newline_ne_digitChar {n : ℕ} (hn : n < 16) : '\n' ≠ Nat.digitChar n := by
  intro heq
  have hvalue := Encoding.hexDigit_digitChar hn
  rw [← heq] at hvalue
  cases hvalue

structure Escapes (cs : List Char) (c : Char) : Prop where
  line : '\n' ∉ cs
  read : ∃ p, Denotes p c ∧ ∀ rest, pieces (cs ++ rest) = (pieces rest).map (onto p)

theorem escapes_jsonChar (c : Char) : Escapes (jsonChar c) c := by
  unfold jsonChar
  split_ifs with h₁ h₂ h₃ h₄ h₅ h₆ h₇ h₈ h₉ h₁₀
  · exact ⟨by decide, .char c, .inl rfl, pieces_escaped (by rw [h₁]; rfl)⟩
  · exact ⟨by decide, .char c, .inl rfl, pieces_escaped (by rw [h₂]; rfl)⟩
  · exact ⟨by decide, .char c, .inl rfl, pieces_escaped (by rw [h₃]; rfl)⟩
  · exact ⟨by decide, .char c, .inl rfl, pieces_escaped (by rw [h₄]; rfl)⟩
  · exact ⟨by decide, .char c, .inl rfl, pieces_escaped (by rw [h₅]; rfl)⟩
  · exact ⟨by decide, .char c, .inl rfl, pieces_escaped (by rw [h₆]; rfl)⟩
  · exact ⟨by decide, .char c, .inl rfl, pieces_escaped (by rw [h₇]; rfl)⟩
  · have hlt : c.toNat < 256 := by
      obtain _ | hmarkup := h₈
      · omega
      · have hall : ∀ c ∈ ['<', '>', '&'], c.toNat < 256 := by simp
        exact hall c hmarkup
    have hhi : '\n' ≠ Nat.digitChar (c.toNat / 16) := newline_ne_digitChar (by omega)
    have hlo : '\n' ≠ Nat.digitChar (c.toNat % 16) := newline_ne_digitChar (by omega)
    exact ⟨by simp [hhi, hlo], .unit c.toNat, .inr rfl, pieces_unit (hex4_byte hlt)⟩
  · exact ⟨by decide, .unit c.toNat, .inr rfl, pieces_unit (by rw [h₉]; rfl)⟩
  · exact ⟨by decide, .unit c.toNat, .inr rfl, pieces_unit (by rw [h₁₀]; rfl)⟩
  · refine ⟨by simpa using Ne.symm h₅, .char c, .inl rfl, pieces_plain h₁ h₂ ?_⟩
    rw [not_or] at h₈
    omega

def jsonEscape : Escape where
  write := jsonChar
  covers _ := true
  read c _ := (escapes_jsonChar c).read
  raw c hc := by cases hc
  line c := (escapes_jsonChar c).line

theorem result_jsonEscape (s : String) : jsonEscape.result s = some s :=
  if_pos (List.all_eq_true.mpr fun _ _ ↦ rfl)

def mapEntries (m : Map String) : List (String × String) :=
  (m.keys.insertionSort (· ≤ ·)).map fun k ↦ (k, m.get "" k)

def mapMembers (m : Map String) : List Member :=
  (mapEntries m).map fun e ↦ ⟨e.1, jsonEscape.quoted e.2, some (.str e.2)⟩

theorem lookup_mapEntries (m : Map String) (key : String) :
    (Map.ofList (mapEntries m)).lookup key = m.lookup key :=
  (Map.lookup_ofList_map (List.perm_insertionSort (· ≤ ·) m.keys) "" (fun _ v ↦ v) key).trans
    Option.map_id'

theorem isInteger_formatNat (n : ℕ) : IsInteger (Strconv.formatNat n).toList := by
  rw [Strconv.formatNat, String.toList_ofList]
  exact .plain (Decimal.isWhole_toDigits n)

theorem isInteger_formatInt (n : Int64) : IsInteger (Strconv.formatInt n).toList := by
  unfold Strconv.formatInt
  split_ifs
  · have hsign : ("-" ++ Strconv.formatNat n.toInt.natAbs).toList =
        '-' :: Nat.toDigits 10 n.toInt.natAbs := by
      simp [Strconv.formatNat]
    rw [hsign]
    exact .negative (Decimal.isWhole_toDigits _)
  · exact isInteger_formatNat _

theorem reads_literal {literal : String} (h : IsInteger literal.toList) (depth : ℕ) :
    Reads (value depth) literal.toList (some (.num literal)) := by
  have hread := reads_num h depth
  rwa [String.ofList_toList] at hread

theorem reads_quoted (s : String) (depth : ℕ) :
    Reads (value depth) (jsonEscape.quoted s) (some (.str s)) := by
  have hread := jsonEscape.reads_str s depth
  rwa [result_jsonEscape] at hread

structure IsMember (depth : ℕ) (m : Member) : Prop where
  reads : Reads (value depth) m.text m.value
  isSome : m.value.isSome = true

def entryOf (m : Member) : String × Value := (m.key, m.value.getD .null)

theorem reads_object {depth : ℕ} {ms : List Member} (h : ∀ m ∈ ms, IsMember depth m) :
    Reads (value (depth + 1)) (jsonEscape.object ms) (some (.obj (ms.map entryOf))) := by
  have hvalue : jsonEscape.objectValue ms = some (.obj (ms.map entryOf)) := by
    apply jsonEscape.objectValue_of_some
    · exact fun m _ ↦ result_jsonEscape m.key
    · intro m hm
      obtain ⟨_, hv⟩ := Option.isSome_iff_exists.mp (h m hm).isSome
      rw [hv]
      rfl
  have hread := jsonEscape.reads_object fun m hm ↦ (h m hm).reads
  rwa [hvalue] at hread

theorem document_object {ms : List Member} (h : ∀ m ∈ ms, IsMember 9999 m) :
    document (jsonEscape.object ms) = some (.obj (ms.map entryOf)) := by
  have hdocument : document (jsonEscape.object ms ++ []) = some (.obj (ms.map entryOf)) := by
    refine document_of_reads (reads_object h) rfl ?_
    intro _ hc
    cases hc
  rwa [List.append_nil] at hdocument

end Marshal

section Columns

variable {σ τ β : Type} {depth : ℕ}

/-- How a type is written and read; a reader that had `old` has `merge old x` after `x`. -/
structure Format (depth : ℕ) (β : Type) where
  omits : β → Bool
  text : β → List Char
  json : β → Value
  unmarshal : β → Value → Option β
  merge (old x : β) : β
  writes (x : β) : Reads (value depth) (text x) (some (json x))
  reads (old x : β) : unmarshal old (json x) = some (merge old x)

/-- A field of a struct. -/
structure Column (depth : ℕ) (σ : Type) where
  key : String
  {β : Type}
  format : Format depth β
  get : σ → β
  set : σ → β → σ
  set_get : ∀ t, set t (get t) = t

namespace Column

def write (c : Column depth σ) (s : σ) : List Member :=
  if c.format.omits (c.get s) then []
  else [⟨c.key, c.format.text (c.get s), some (c.format.json (c.get s))⟩]

def decode (c : Column depth σ) : σ → Value → Option σ := field c.get c.set c.format.unmarshal

def copy (c : Column depth σ) (s t : σ) : σ :=
  c.set t (if c.format.omits (c.get s) then c.get t else c.format.merge (c.get t) (c.get s))

def fields (columns : List (Column depth σ)) : Fields σ := columns.map fun c ↦ (c.key, c.decode)

def members (columns : List (Column depth σ)) (s : σ) : List Member :=
  columns.flatMap (·.write s)

def copyAll (columns : List (Column depth σ)) (s t : σ) : σ :=
  columns.foldl (fun t c ↦ c.copy s t) t

def Within (columns : List (Column depth σ)) (fields : Fields σ) : Prop :=
  ∀ c ∈ columns, findField fields c.key = some c.decode

theorem isMember_members (columns : List (Column depth σ)) (s : σ) :
    ∀ m ∈ members columns s, IsMember depth m := by
  intro m hm
  obtain ⟨c, -, hm⟩ := List.mem_flatMap.mp hm
  unfold write at hm
  split_ifs at hm
  · cases hm
  · rw [List.mem_singleton.mp hm]
    exact ⟨c.format.writes _, rfl⟩

theorem foldlM_write {c : Column depth σ} {fields : Fields σ}
    (h : findField fields c.key = some c.decode) (s t : σ) :
    ((c.write s).map entryOf).foldlM (setMember fields) t = some (c.copy s t) := by
  unfold write copy
  split_ifs
  · rw [c.set_get]
    rfl
  · have hset : setMember fields t (c.key, c.format.json (c.get s)) =
        some (c.set t (c.format.merge (c.get t) (c.get s))) := by
      rw [setMember, h]
      exact congrArg (Option.map _) (c.format.reads _ _)
    exact (bind_pure _).trans hset

theorem unmarshalStruct_members {columns : List (Column depth σ)} {fields : Fields σ}
    (h : Within columns fields) (s t : σ) :
    unmarshalStruct fields t (.obj ((members columns s).map entryOf)) =
      some (copyAll columns s t) := by
  induction columns generalizing t with
  | nil => rfl
  | cons c columns ih =>
    obtain ⟨hc, hcolumns⟩ := List.forall_mem_cons.mp h
    rw [members, List.flatMap_cons, List.map_append, unmarshalStruct, List.foldlM_append,
      foldlM_write hc]
    exact ih hcolumns _

/-- `json.Marshal` of a struct with these fields. -/
def marshal (columns : List (Column 9999 σ)) (s : σ) : List UInt8 :=
  Text.utf8 (jsonEscape.object (members columns s))

def unmarshal (fields : Fields σ) (zero : σ) (data : List UInt8) : Option σ :=
  (document (runes data.length data)).bind (unmarshalStruct fields zero)

variable {columns : List (Column 9999 σ)}

theorem unmarshal_marshal {fields : Fields σ} (h : Within columns fields) (s t : σ) :
    unmarshal fields t (marshal columns s) = some (copyAll columns s t) := by
  rw [unmarshal, marshal, runes_utf8 _ le_rfl, document_object (isMember_members columns s)]
  exact unmarshalStruct_members h s t

theorem newline_notMem_marshal (s : σ) : 10 ∉ marshal columns s := fun hmem ↦
  (reads_object (isMember_members columns s)).line (Text.newline_of_mem_utf8 hmem)

end Column

namespace Format

def num (format : β → String) (unmarshal : β → Value → Option β)
    (hformat : ∀ x, IsInteger (format x).toList)
    (hread : ∀ old x, unmarshal old (.num (format x)) = some x) : Format depth β where
  omits _ := false
  text x := (format x).toList
  json x := .num (format x)
  unmarshal := unmarshal
  merge _ x := x
  writes x := reads_literal (hformat x) depth
  reads := hread

def int64 : Format depth Int64 :=
  num Strconv.formatInt unmarshalInt64 isInteger_formatInt fun _ ↦ Strconv.parseInt_formatInt

def uint64 : Format depth UInt64 :=
  num (fun n ↦ Strconv.formatNat n.toNat) unmarshalUint64 (fun _ ↦ isInteger_formatNat _)
    fun _ ↦ Strconv.parseUint_formatNat

def str : Format depth String where
  omits _ := false
  text := jsonEscape.quoted
  json := .str
  unmarshal := unmarshalString
  merge _ x := x
  writes s := reads_quoted s depth
  reads _ _ := rfl

/-- With `omitempty`. -/
def optional : Format depth String := { str with omits := fun s ↦ s = "" }

/-- With `omitempty`. -/
def flag : Format depth Bool where
  omits b := !b
  text b := cond b ['t', 'r', 'u', 'e'] ['f', 'a', 'l', 's', 'e']
  json := .bool
  unmarshal := unmarshalBool
  merge _ b := b
  writes b := by
    cases b
    all_goals
      refine ⟨⟨_, _, rfl, by decide⟩, ?_, by decide⟩
      intro _ _
      exact value_of_scalar (by decide) depth _
  reads _ _ := rfl

/-- A `map[string]string` with `omitempty`. -/
def strings : Format (depth + 1) (Option (Map String)) where
  omits m := (m.getD ∅).keys = []
  text m := jsonEscape.object (mapMembers (m.getD ∅))
  json m := .obj ((mapEntries (m.getD ∅)).map (Prod.map id .str))
  unmarshal := unmarshalMap
  merge old m :=
    some ((mapEntries (m.getD ∅)).foldl (fun m e ↦ m.insert e.1 e.2) (old.getD ∅))
  writes m := by
    have hmembers : ∀ e ∈ mapMembers (m.getD ∅), IsMember depth e := by
      intro _ he
      obtain ⟨e, -, rfl⟩ := List.mem_map.mp he
      exact ⟨reads_quoted e.2 depth, rfl⟩
    have hread := reads_object hmembers
    rwa [mapMembers, List.map_map] at hread
  reads old m := unmarshalMap_strings old _

/-- A slice of structs. -/
def slice {columns : List (Column depth τ)} {fields : Fields τ}
    (hfields : Column.Within columns fields) (zero : τ) : Format (depth + 2) (List τ) where
  omits _ := false
  text xs :=
    '[' :: commas (xs.map fun x ↦ jsonEscape.object (Column.members columns x)) ++ [']']
  json xs := .arr (xs.map fun x ↦ .obj ((Column.members columns x).map entryOf))
  unmarshal := unmarshalSlice (unmarshalStruct fields zero)
  merge _ xs := xs.map (Column.copyAll columns · zero)
  writes xs := by
    have hread := reads_array
      (fun x (_ : x ∈ xs) ↦ reads_object (Column.isMember_members columns x))
      fun _ _ ↦ by simp [Escape.object]
    rwa [mapM_of_some fun _ _ ↦ rfl] at hread
  reads _ xs := by
    rw [unmarshalSlice, List.mapM_map]
    exact mapM_of_some fun x _ ↦ Column.unmarshalStruct_members hfields x zero

end Format

end Columns

end PolicyEngine.Go.Marshal
