import AstSchema.Json.Fault

/-!
# Reading JSON texts

The pieces from which a reader of one particular shape is put together: blanks, strings, numbers,
literals, and the separators of arrays and objects. Every piece takes the text still to be read
and returns what is left of it, and those that read a value always leave less.

A value of an unwanted kind is read only as far as it has to be described: a number or a string to
its end, an array or an object not at all.
-/

namespace AstSchema.Json

/-! ## Blanks -/

/-- The blanks between tokens: space, tab, line feed and carriage return. -/
def isBlank (c : Char) : Bool := c == ' ' || c == '\n' || c == '\t' || c == '\r'

/-- The text behind its leading blanks. -/
def skipBlanks (cs : List Char) : List Char := cs.dropWhile isBlank

theorem length_skipBlanks_le (cs : List Char) : (skipBlanks cs).length ≤ cs.length :=
  (List.dropWhile_sublist isBlank).length_le

/-! ## Strings -/

/-- The value of a hexadecimal digit. -/
def hexDigit? (c : Char) : Option Nat :=
  if '0' ≤ c ∧ c ≤ '9' then some (c.toNat - '0'.toNat)
  else if 'a' ≤ c ∧ c ≤ 'f' then some (c.toNat - 'a'.toNat + 10)
  else if 'A' ≤ c ∧ c ≤ 'F' then some (c.toNat - 'A'.toNat + 10)
  else none

/-- The fault of four bytes that are not four hexadecimal digits, or of less than four bytes. -/
def hexFault (cs : List Char) : Fault :=
  if (String.ofList cs).utf8ByteSize < 4 then .before .endInString []
  else ⟨.invalidEscape, cs, 4, []⟩

/-- Reads four hexadecimal digits. -/
def readHex : List Char → Result Nat
  | a :: b :: c :: d :: rest =>
    match hexDigit? a, hexDigit? b, hexDigit? c, hexDigit? d with
    | some x, some y, some z, some w => .ok (((x * 16 + y) * 16 + z) * 16 + w, rest)
    | _, _, _, _ => .error (hexFault (a :: b :: c :: d :: rest))
  | cs => .error (hexFault cs)

/-- Whether a 16-bit unit is the first half of a surrogate pair. -/
def isLeading (n : Nat) : Bool := 0xD800 ≤ n && n ≤ 0xDBFF

/-- Whether a 16-bit unit is the second half of a surrogate pair. -/
def isTrailing (n : Nat) : Bool := 0xDC00 ≤ n && n ≤ 0xDFFF

/-- The character of a surrogate pair. -/
def pairChar (leading trailing : Nat) : Char :=
  Char.ofNat ((leading - 0xD800) * 0x400 + (trailing - 0xDC00) + 0x10000)

/-- Reads the second half of a surrogate pair, an escape of its own. -/
def readTrailing (leading : Nat) : List Char → Result Char
  | [] => .error (.before .endInString [])
  | ['\\'] => .error (.before .endInString [])
  | '\\' :: 'u' :: cs =>
    match readHex cs with
    | .error fault => .error fault
    | .ok (n, rest) =>
      if isTrailing n then .ok (pairChar leading n, rest) else .error (.before .loneSurrogate rest)
  | '\\' :: cs => .error (.at .brokenPair cs)
  | cs => .error (.at .brokenPair cs)

/-- Reads what follows `\u`. -/
def readUnit (cs : List Char) : Result Char :=
  match readHex cs with
  | .error fault => .error fault
  | .ok (n, rest) =>
    if isTrailing n then .error (.before .loneSurrogate rest)
    else if isLeading n then readTrailing n rest
    else .ok (Char.ofNat n, rest)

/-- The character that a backslash and this letter stand for. -/
def shortEscape? (c : Char) : Option Char :=
  if c = '"' then some '"'
  else if c = '\\' then some '\\'
  else if c = '/' then some '/'
  else if c = 'b' then some '\x08'
  else if c = 'f' then some '\x0c'
  else if c = 'n' then some '\n'
  else if c = 'r' then some '\r'
  else if c = 't' then some '\t'
  else none

/-- Reads what follows a backslash. -/
def readEscape : List Char → Result Char
  | [] => .error (.before .endInString [])
  | c :: cs =>
    match shortEscape? c with
    | some d => .ok (d, cs)
    | none => if c = 'u' then readUnit cs else .error (.at .invalidEscape (c :: cs))

theorem length_readHex {cs rest : List Char} {n : Nat} (h : readHex cs = .ok (n, rest)) :
    rest.length < cs.length := by
  unfold readHex at h
  split at h
  · split at h
    · injection h with h
      injection h with _ h
      subst h
      simp only [List.length_cons]
      omega
    · exact absurd h (by simp)
  · exact absurd h (by simp)

theorem length_readTrailing {leading : Nat} {cs rest : List Char} {c : Char}
    (h : readTrailing leading cs = .ok (c, rest)) : rest.length < cs.length := by
  unfold readTrailing at h
  split at h
  · exact absurd h (by simp)
  · exact absurd h (by simp)
  · split at h
    · exact absurd h (by simp)
    · next hread =>
      have := length_readHex hread
      split at h
      · injection h with h
        injection h with _ h
        subst h
        simp only [List.length_cons]
        omega
      · exact absurd h (by simp)
  · exact absurd h (by simp)
  · exact absurd h (by simp)

theorem length_readUnit {cs rest : List Char} {c : Char} (h : readUnit cs = .ok (c, rest)) :
    rest.length < cs.length := by
  unfold readUnit at h
  split at h
  · exact absurd h (by simp)
  · next hread =>
    have := length_readHex hread
    split at h
    · exact absurd h (by simp)
    · split at h
      · have := length_readTrailing h
        omega
      · injection h with h
        injection h with _ h
        subst h
        omega

theorem length_readEscape {cs rest : List Char} {c : Char} (h : readEscape cs = .ok (c, rest)) :
    rest.length < cs.length := by
  unfold readEscape at h
  split at h
  · exact absurd h (by simp)
  · split at h
    · injection h with h
      injection h with _ h
      subst h
      simp
    · split at h
      · have := length_readUnit h
        simp only [List.length_cons]
        omega
      · exact absurd h (by simp)

/-- Reads a string from behind its opening quote. -/
def readChars : List Char → Result (List Char)
  | [] => .error (.before .endInString [])
  | c :: cs =>
    if c = '"' then .ok ([], cs)
    else if c = '\\' then
      match _hread : readEscape cs with
      | .error fault => .error fault
      | .ok (d, rest) =>
        match readChars rest with
        | .error fault => .error fault
        | .ok (ds, rest) => .ok (d :: ds, rest)
    else if c.toNat < 0x20 then .error (.at .controlCharacter (c :: cs))
    else
      match readChars cs with
      | .error fault => .error fault
      | .ok (ds, rest) => .ok (c :: ds, rest)
termination_by cs => cs.length
decreasing_by
  all_goals simp_wf
  · have := length_readEscape _hread
    omega

theorem length_readChars {cs rest ds : List Char} (h : readChars cs = .ok (ds, rest)) :
    rest.length < cs.length := by
  fun_induction readChars cs generalizing ds rest with
  | case1 => simp at h
  | case2 cs => simp_all
  | case3 => simp at h
  | case4 => simp at h
  | case5 cs d rest' hread es rest'' hok hquote ih =>
    have := ih hok
    have := length_readEscape hread
    simp only [Except.ok.injEq, Prod.mk.injEq] at h
    simp only [List.length_cons, ← h.2]
    omega
  | case6 c cs hquote hslash hcontrol => simp at h
  | case7 c cs hquote hslash hcontrol fault hfault ih => simp at h
  | case8 c cs hquote hslash hcontrol es rest' hok ih =>
    have := ih hok
    simp only [Except.ok.injEq, Prod.mk.injEq] at h
    simp only [List.length_cons, ← h.2]
    omega

/-! ## Numbers -/

/-- The largest number that fits 64 bits. -/
def maxUnsigned : Nat := UInt64.size - 1

/-- The largest distance from zero that a negative number in 64 bits has. -/
def maxNegative : Nat := UInt64.size / 2

/-- The largest exponent that is told from an infinite one. -/
def maxExponent : Nat := UInt32.size / 2 - 1

/-- The value of a decimal digit. -/
def digitValue (c : Char) : Nat := c.toNat - '0'.toNat

/-- Appends digits to `n` as long as the result stays within `limit`. The second component counts
the digits appended. -/
def appendDigits (limit : Nat) (n : Nat) : List Char → Nat × Nat × List Char
  | [] => (n, 0, [])
  | c :: cs =>
    if c.isDigit && n * 10 + digitValue c ≤ limit then
      match appendDigits limit (n * 10 + digitValue c) cs with
      | (n', count, rest) => (n', count + 1, rest)
    else
      (n, 0, c :: cs)

/-- A power of ten as a floating-point number. -/
def powerOfTen (n : Nat) : Float := Float.ofScientific 1 false n

/-- Scales `x` by a power of ten. Every step rounds, and a result too large to represent is no
number at all. -/
def scale (x : Float) (e : Int) : Option Float :=
  if e.natAbs ≤ 308 then
    if 0 ≤ e then
      let y := x * powerOfTen e.toNat
      if y.isInf then none else some y
    else
      some (x / powerOfTen e.natAbs)
  else if x == 0 then some x
  else if 0 ≤ e then none
  else scale (x / powerOfTen 308) (e + 308)
termination_by e.natAbs
decreasing_by omega

/-- The number `± significand * 10 ^ e`, where it is not too large. -/
def makeFloat (negative : Bool) (significand : Nat) (e : Int) (rest : List Char) : Result Found :=
  match scale significand.toUInt64.toFloat e with
  | none => .error (.before .numberOutOfRange rest)
  | some x => .ok (.float (if negative then -x else x), rest)

/-- Reads an exponent from behind its letter. -/
def readExponent (negative : Bool) (significand : Nat) (e : Int) (cs : List Char) :
    Result Found :=
  let (down, digits) := match cs with
    | '+' :: ds => (false, ds)
    | '-' :: ds => (true, ds)
    | ds => (false, ds)
  match digits with
  | [] => .error (.before .endInValue [])
  | c :: ds =>
    if !c.isDigit then .error (.at .invalidNumber (c :: ds))
    else
      match appendDigits maxExponent 0 (c :: ds) with
      | (size, _, rest) =>
        match rest with
        | d :: rest' =>
          if d.isDigit then
            -- The exponent does not fit, so the number is zero or beyond all bounds.
            if significand ≠ 0 && !down then .error (.before .numberOutOfRange rest')
            else .ok (.float (if negative then -0.0 else 0.0), rest'.dropWhile Char.isDigit)
          else
            makeFloat negative significand (if down then e - size else e + size) rest
        | [] => makeFloat negative significand (if down then e - size else e + size) rest

/-- Reads the rest of a number behind all its digits: an exponent or nothing. -/
def readScale (negative : Bool) (significand : Nat) (e : Int) : List Char → Result Found
  | [] => makeFloat negative significand e []
  | c :: cs =>
    if c = 'e' ∨ c = 'E' then readExponent negative significand e cs
    else makeFloat negative significand e (c :: cs)

/-- Reads a fraction from behind its point. Digits that do not fit any more are dropped. -/
def readFraction (negative : Bool) (significand : Nat) (e : Int) (cs : List Char) :
    Result Found :=
  match cs with
  | [] => .error (.before .endInValue [])
  | c :: _ =>
    if !c.isDigit then .error (.at .invalidNumber cs)
    else
      match appendDigits maxUnsigned significand cs with
      | (significand', count, rest) =>
        readScale negative significand' (e - count) (rest.dropWhile Char.isDigit)

/-- Reads a number behind the digits of its integer part. Zero with a sign is no integer. -/
def readAfterInteger (negative : Bool) (significand : Nat) (cs : List Char) : Result Found :=
  let integer : Found :=
    if !negative then .integer significand
    else if 0 < significand ∧ significand ≤ maxNegative then .integer (-significand)
    else .float (-significand.toUInt64.toFloat)
  match cs with
  | [] => .ok (integer, [])
  | c :: rest =>
    if c = '.' then readFraction negative significand 0 rest
    else if c = 'e' ∨ c = 'E' then readExponent negative significand 0 rest
    else .ok (integer, cs)

/-- Reads a number from behind its sign. An integer part too long for 64 bits is cut, and the
digits cut off only count for the power of ten. -/
def readNumber (negative : Bool) (cs : List Char) : Result Found :=
  match cs with
  | [] => .error (.before .endInValue [])
  | '0' :: rest =>
    match rest with
    | d :: _ =>
      if d.isDigit then .error (.at .invalidNumber rest) else readAfterInteger negative 0 rest
    | [] => readAfterInteger negative 0 rest
  | c :: _ =>
    if !c.isDigit then .error (.at .invalidNumber cs)
    else
      match appendDigits maxUnsigned 0 cs with
      | (significand, _, rest) =>
        let beyond := rest.takeWhile Char.isDigit
        let rest := rest.dropWhile Char.isDigit
        -- The digits of a fraction still count if they happen to fit.
        if beyond.isEmpty then readAfterInteger negative significand rest
        else
          match rest with
          | '.' :: rest => readFraction negative significand beyond.length rest
          | rest => readScale negative significand beyond.length rest

/-! ## Values of an unwanted kind -/

/-- Reads the rest of a literal. -/
def readLiteral {α : Type} (value : α) : List Char → List Char → Result α
  | [], cs => .ok (value, cs)
  | _ :: _, [] => .error (.before .endInValue [])
  | l :: ls, c :: cs =>
    if l = c then readLiteral value ls cs else .error (.at .expectedLiteral (c :: cs))

/-- Reads the value at the start of the text as far as it has to be described. -/
def readFound : List Char → Result Found
  | [] => .error (.at .endInValue [])
  | c :: cs =>
    if c = 'n' then readLiteral .null ['u', 'l', 'l'] cs
    else if c = 't' then readLiteral (.boolean true) ['r', 'u', 'e'] cs
    else if c = 'f' then readLiteral (.boolean false) ['a', 'l', 's', 'e'] cs
    else if c = '-' then readNumber true cs
    else if c.isDigit then readNumber false (c :: cs)
    else if c = '"' then
      match readChars cs with
      | .error fault => .error fault
      | .ok (s, rest) => .ok (.text (String.ofList s), rest)
    else if c = '[' then .ok (.sequence, c :: cs)
    else if c = '{' then .ok (.map, c :: cs)
    else .error (.at .expectedValue (c :: cs))

/-- The fault of a text that starts with no value of the wanted kind. -/
def unwanted (wanted : String) (cs : List Char) : Fault :=
  match readFound cs with
  | .error fault => fault
  | .ok (found, rest) => .before (.invalidType found wanted) rest

theorem length_readLiteral {α : Type} {value a : α} {letters cs rest : List Char}
    (h : readLiteral value letters cs = .ok (a, rest)) : rest.length ≤ cs.length := by
  induction letters generalizing cs with
  | nil =>
    simp only [readLiteral, Except.ok.injEq, Prod.mk.injEq] at h
    exact Nat.le_of_eq (congrArg List.length h.2.symm)
  | cons l ls ih =>
    cases cs with
    | nil => simp [readLiteral] at h
    | cons c cs =>
      unfold readLiteral at h
      split at h
      · have := ih h
        simp only [List.length_cons]
        omega
      · exact absurd h (by simp)

/-! ## Separators -/

/-- Where the element with this index starts, or `none` in front of the end of the array. -/
def nextElement? (index : Nat) (cs : List Char) : Except Fault (Option (List Char)) :=
  match skipBlanks cs with
  | [] => .error (.at .endInList [])
  | c :: rest =>
    if c = ']' then .ok none
    else if index = 0 then .ok (some (c :: rest))
    else if c = ',' then
      match skipBlanks rest with
      | [] => .error (.at .endInValue [])
      | d :: rest =>
        if d = ']' then .error (.at .trailingComma (d :: rest)) else .ok (some (d :: rest))
    else .error (.at .expectedCommaOrBracket (c :: rest))

/-- Reads the end of an array that may hold no more elements. -/
def endArray (cs : List Char) : Except Fault (List Char) :=
  match skipBlanks cs with
  | [] => .error (.at .endInList [])
  | c :: rest =>
    if c = ']' then .ok rest
    else if c = ',' then
      match skipBlanks rest with
      | ']' :: rest => .error (.at .trailingComma (']' :: rest))
      | rest => .error (.at .trailingCharacters rest)
    else .error (.at .trailingCharacters (c :: rest))

/-- The text behind the opening quote of the next key, or `none` in front of the end of the
object. -/
def nextKey? (first : Bool) (cs : List Char) : Except Fault (Option (List Char)) :=
  match skipBlanks cs with
  | [] => .error (.at .endInObject [])
  | c :: rest =>
    if c = '}' then .ok none
    else if first then
      if c = '"' then .ok (some rest) else .error (.at .keyNotString (c :: rest))
    else if c = ',' then
      match skipBlanks rest with
      | [] => .error (.at .endInValue [])
      | d :: rest =>
        if d = '"' then .ok (some rest)
        else if d = '}' then .error (.at .trailingComma (d :: rest))
        else .error (.at .keyNotString (d :: rest))
    else .error (.at .expectedCommaOrBrace (c :: rest))

/-- Reads the colon behind a key. -/
def readColon (cs : List Char) : Except Fault (List Char) :=
  match skipBlanks cs with
  | [] => .error (.at .endInObject [])
  | c :: rest => if c = ':' then .ok rest else .error (.at .expectedColon (c :: rest))

/-- The place of a fault in the key that has just been read: behind the blanks that follow it, and
behind the end of the object if it follows them. -/
def behindKey (cs : List Char) : List Char :=
  match skipBlanks cs with
  | '}' :: rest => rest
  | rest => rest

/-! ## Progress -/

theorem length_nextElement? {index : Nat} {cs rest : List Char}
    (h : nextElement? index cs = .ok (some rest)) : rest.length ≤ cs.length := by
  unfold nextElement? at h
  have hskip := length_skipBlanks_le cs
  split at h
  · exact absurd h (by simp)
  · next c tail hcs =>
    rw [hcs] at hskip
    split at h
    · exact absurd h (by simp)
    · split at h
      · simp only [Except.ok.injEq, Option.some.injEq] at h
        rw [← h]
        exact hskip
      · split at h
        · have hskip' := length_skipBlanks_le tail
          split at h
          · exact absurd h (by simp)
          · next hcs' =>
            rw [hcs'] at hskip'
            split at h
            · exact absurd h (by simp)
            · simp only [Except.ok.injEq, Option.some.injEq] at h
              simp only [List.length_cons] at hskip hskip'
              rw [← h]
              simp only [List.length_cons]
              omega
        · exact absurd h (by simp)

theorem length_endArray {cs rest : List Char} (h : endArray cs = .ok rest) :
    rest.length < cs.length := by
  unfold endArray at h
  have hskip := length_skipBlanks_le cs
  split at h
  · exact absurd h (by simp)
  · next hcs =>
    rw [hcs] at hskip
    split at h
    · simp only [Except.ok.injEq] at h
      simp only [List.length_cons] at hskip
      rw [← h]
      omega
    · split at h
      · split at h <;> exact absurd h (by simp)
      · exact absurd h (by simp)

theorem length_nextKey? {first : Bool} {cs rest : List Char}
    (h : nextKey? first cs = .ok (some rest)) : rest.length < cs.length := by
  unfold nextKey? at h
  have hskip := length_skipBlanks_le cs
  split at h
  · exact absurd h (by simp)
  · next c tail hcs =>
    rw [hcs, List.length_cons] at hskip
    split at h
    · exact absurd h (by simp)
    · split at h
      · split at h
        · simp only [Except.ok.injEq, Option.some.injEq] at h
          rw [← h]
          omega
        · exact absurd h (by simp)
      · split at h
        · have hskip' := length_skipBlanks_le tail
          split at h
          · exact absurd h (by simp)
          · next hcs' =>
            rw [hcs', List.length_cons] at hskip'
            split at h
            · simp only [Except.ok.injEq, Option.some.injEq] at h
              rw [← h]
              omega
            · split at h <;> exact absurd h (by simp)
        · exact absurd h (by simp)

theorem length_readColon {cs rest : List Char} (h : readColon cs = .ok rest) :
    rest.length < cs.length := by
  unfold readColon at h
  have hskip := length_skipBlanks_le cs
  split at h
  · exact absurd h (by simp)
  · next hcs =>
    rw [hcs, List.length_cons] at hskip
    split at h
    · simp only [Except.ok.injEq] at h
      rw [← h]
      omega
    · exact absurd h (by simp)

theorem length_behindKey_le (cs : List Char) : (behindKey cs).length ≤ cs.length := by
  unfold behindKey
  have hskip := length_skipBlanks_le cs
  split
  · next hcs =>
    rw [hcs, List.length_cons] at hskip
    omega
  · exact hskip

end AstSchema.Json
