import AstSchema.Malformation
import AstSchema.Schema
import AstSchema.TypeText

/-!
# Reading schema lines

A schema line names a variant, puts a colon behind it and lists the fields, separated by commas:

```text
Binary: left Box<Expr>, right Box<Expr>, operator Token
```

The first colon of a line ends the name, so later colons belong to types. A comma separates two
fields where no bracket is open. Each field is cut at its first blank into a name and a type. All
parts may be padded.

The brackets of a whole field list are checked before any field of it is looked at, since without
them there are no fields to speak of; behind that, the first fault from the left is the one that
is reported.
-/

namespace AstSchema

open AstSchema.Text

/-! ## Fields -/

/-- Cuts a text into the segments between the commas outside brackets. The segment in progress is
kept last character first. A failure carries the segment up to the bracket that does not match, or
to the end where one is left open. -/
def segmentsFrom (n : Nesting) (current : List Char) :
    List Char → Except (List Char) (List (List Char))
  | [] => if n.atTop then .ok [current.reverse] else .error current.reverse
  | c :: cs =>
    -- The comma is no part of the scan: a hyphen before it and a `>` behind it are an arrow.
    if c == ',' && n.atTop then
      match segmentsFrom n [] cs with
      | .ok segments => .ok (current.reverse :: segments)
      | .error segment => .error segment
    else if n.admits c then
      segmentsFrom (n.advance c) (c :: current) cs
    else
      .error (c :: current).reverse

/-- The segments of a field list. -/
def segments (list : List Char) : Except (List Char) (List (List Char)) :=
  segmentsFrom .start [] list

namespace Field

/-- Reads one segment of a field list. -/
def ofSegment (segment : List Char) : Except Malformation Field :=
  let spec := trim segment
  if spec.isEmpty then
    .error .emptyField
  else
    let name := spec.takeWhile (!isBlank ·)
    match spec.dropWhile (!isBlank ·) with
    | [] => .error (.missingType (String.ofList spec))
    | _ :: rest =>
      let type := trim rest
      if TypeText.runsOn type then
        .error (.missingComma (String.ofList name))
      else
        .ok ⟨String.ofList name, String.ofList type⟩

/-- Reads segments in their order and stops at the first that is no field. -/
def ofSegments : List (List Char) → Except Malformation (List Field)
  | [] => .ok []
  | segment :: rest =>
    match ofSegment segment with
    | .error reason => .error reason
    | .ok field =>
      match ofSegments rest with
      | .error reason => .error reason
      | .ok fields => .ok (field :: fields)

/-- Reads the text of one field. -/
def read (spec : String) : Except Malformation Field := ofSegment spec.toList

end Field

/-! ## Variants and schemas -/

namespace Variant

/-- Reads a field list: brackets first, then the fields from the left. -/
def readFields (list : List Char) : Except Malformation (List Field) :=
  match segments list with
  | .error segment => .error (.unbalanced (trimmed (String.ofList segment)))
  | .ok segments => Field.ofSegments segments

/-- Reads one schema line. -/
def read (line : String) : Except Malformation Variant :=
  match line.toList.dropWhile (· != ':') with
  | [] => .error .missingSeparator
  | _ :: list =>
    let name := trim (line.toList.takeWhile (· != ':'))
    if name.isEmpty then
      .error .emptyVariantName
    else
      match readFields list with
      | .error reason => .error reason
      | .ok fields => .ok ⟨String.ofList name, fields⟩

/-- Reads the lines from the one with the index `line` on and stops at the first that is
malformed. -/
def readFrom (line : Nat) : List String → Except SchemaError (List Variant)
  | [] => .ok []
  | text :: rest =>
    match read text with
    | .error reason => .error (.malformed line reason)
    | .ok variant =>
      match readFrom (line + 1) rest with
      | .error error => .error error
      | .ok variants => .ok (variant :: variants)

end Variant

/-- Reads a schema from the name of its category and its lines. -/
def Schema.read (base : String) (lines : List String) : Except SchemaError Schema :=
  let name := trim base.toList
  if name.isEmpty then
    .error .emptyBaseName
  else
    match Variant.readFrom 0 lines with
    | .error error => .error error
    | .ok variants => .ok ⟨String.ofList name, variants⟩

end AstSchema
