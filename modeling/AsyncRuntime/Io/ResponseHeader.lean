import AsyncRuntime.Io.MultipartHeader

/-!
# The header of a response

A header is a status line, a line for each field and an empty line.  The value of
`Content-Type` is a type with parameters; a parameter has a token or a quoted text,
in which a backslash takes the meaning off the character behind it.  The names of
fields and of parameters are the same in upper and in lower case.
-/

namespace AsyncRuntime.Io.ResponseHeader

open AsyncRuntime.Io.MultipartHeader (Byte text newline colon semicolon contentTypeName)

def carriageReturn : Byte := '\r'.toUInt8

def space : Byte := ' '.toUInt8

def tab : Byte := '\t'.toUInt8

def quote : Byte := '"'.toUInt8

def backslash : Byte := '\\'.toUInt8

def equals : Byte := '='.toUInt8

def slash : Byte := '/'.toUInt8

/-! ## Tokens and blanks -/

/-- A character of a token other than a letter or a digit. -/
def isMark (byte : Byte) : Bool :=
  [33, 35, 36, 37, 38, 39, 42, 43, 45, 46, 94, 95, 96, 124, 126].contains byte

/-- A character of a token. -/
def isTokenByte (byte : Byte) : Bool :=
  (48 ≤ byte && byte ≤ 57) || (65 ≤ byte && byte ≤ 90) || (97 ≤ byte && byte ≤ 122) ||
    isMark byte

/-- A token is not empty and has no separators. -/
structure IsToken (word : List Byte) : Prop where
  nonempty : word ≠ []
  bytes : ∀ byte ∈ word, isTokenByte byte = true

theorem IsToken.not_mem {word : List Byte} (valid : IsToken word) {byte : Byte}
    (separates : isTokenByte byte = false) : byte ∉ word := by
  intro member
  rw [valid.bytes byte member] at separates
  cases separates

instance (word : List Byte) : Decidable (IsToken word) :=
  decidable_of_iff (word ≠ [] ∧ word.all isTokenByte = true)
    ⟨fun both => ⟨both.1, List.all_eq_true.mp both.2⟩,
      fun valid => ⟨valid.nonempty, List.all_eq_true.mpr valid.bytes⟩⟩

/-- Spaces and tabs. -/
def IsBlank (blanks : List Byte) : Prop :=
  ∀ byte ∈ blanks, byte = space ∨ byte = tab

instance (blanks : List Byte) : Decidable (IsBlank blanks) :=
  List.decidableBAll _ blanks

/-- A text without the characters that end a line. -/
def IsOneLine (content : List Byte) : Prop :=
  carriageReturn ∉ content ∧ newline ∉ content

instance (content : List Byte) : Decidable (IsOneLine content) :=
  inferInstanceAs (Decidable (_ ∧ _))

/-- A letter in lower case. -/
def lower (byte : Byte) : Byte :=
  if 65 ≤ byte && byte ≤ 90 then byte + 32 else byte

/-- The names differ at most in their case. -/
def SameName (first second : List Byte) : Prop :=
  first.map lower = second.map lower

instance (first second : List Byte) : Decidable (SameName first second) :=
  inferInstanceAs (Decidable (_ = _))

/-! ## Parameters -/

/-- A character of a quoted text, with a backslash before it or without. -/
inductive Quoted where
  | plain (byte : Byte) (valid : byte ≠ quote ∧ byte ≠ backslash ∧ IsOneLine [byte])
  | escaped (byte : Byte) (valid : IsOneLine [byte])

def Quoted.byte : Quoted → Byte
  | .plain byte _ => byte
  | .escaped byte _ => byte

def Quoted.render : Quoted → List Byte
  | .plain byte _ => [byte]
  | .escaped byte _ => [backslash, byte]

/-- The value of a parameter. -/
inductive Value where
  | token (word : List Byte) (valid : IsToken word)
  | quoted (content : List Quoted)

/-- What the value stands for, without quotes. -/
def Value.content : Value → List Byte
  | .token word _ => word
  | .quoted content => content.map Quoted.byte

/-- How the value is written. -/
def Value.render : Value → List Byte
  | .token word _ => word
  | .quoted content => quote :: (content.flatMap Quoted.render ++ [quote])

/-- `; name=value`, with blanks on both sides of the semicolon. -/
structure Parameter where
  before : List Byte
  after : List Byte
  blank : IsBlank (before ++ after)
  name : List Byte
  named : IsToken name
  value : Value

/-- What is written before the name. -/
def Parameter.lead (parameter : Parameter) : List Byte :=
  parameter.before ++ semicolon :: parameter.after

def Parameter.render (parameter : Parameter) : List Byte :=
  parameter.lead ++ (parameter.name ++ equals :: parameter.value.render)

/-- `type/subtype` with parameters. -/
structure MediaType where
  type : List Byte
  typed : IsToken type
  subtype : List Byte
  subtyped : IsToken subtype
  parameters : List Parameter

def MediaType.essence (mediaType : MediaType) : List Byte :=
  mediaType.type ++ slash :: mediaType.subtype

def MediaType.render (mediaType : MediaType) : List Byte :=
  mediaType.essence ++ mediaType.parameters.flatMap Parameter.render

/-- The value of the boundary parameter; it is empty if there is none. -/
def MediaType.boundary (mediaType : MediaType) : List Byte :=
  match mediaType.parameters.find? fun parameter =>
      SameName parameter.name (text "boundary") with
  | none => []
  | some parameter => parameter.value.content

/-! ## Fields and headers -/

/-- The value of a field. -/
inductive Content where
  | other (content : List Byte) (valid : IsOneLine content)
  | media (mediaType : MediaType)

def Content.render : Content → List Byte
  | .other content _ => content
  | .media mediaType => mediaType.render

/-- The type that a value gives. -/
def Content.mediaType? : Content → Option MediaType
  | .other _ _ => none
  | .media mediaType => some mediaType

/-- A field; the one with the name `Content-Type` gives a type. -/
structure Field where
  name : List Byte
  named : IsToken name
  blanks : List Byte
  blank : IsBlank blanks
  content : Content
  typed : content.mediaType?.isSome = true ↔ SameName name contentTypeName

/-- The line of a field without its end. -/
def Field.render (field : Field) : List Byte :=
  field.name ++ colon :: (field.blanks ++ field.content.render)

/-- The header of a response. -/
structure Response where
  status : List Byte
  valid : IsOneLine status
  fields : List Field

/-- A line with its end. -/
def crlf (line : List Byte) : List Byte :=
  line ++ [carriageReturn, newline]

def Response.render (response : Response) : List Byte :=
  crlf response.status ++ response.fields.flatMap (fun field => crlf field.render) ++ crlf []

/-- The boundary that the header gives. -/
def Response.boundary (response : Response) : List Byte :=
  match response.fields.findSome? fun field => field.content.mediaType? with
  | none => []
  | some mediaType => mediaType.boundary

/-! ## Nothing but the end of a line ends it -/

theorem IsToken.no_newline {word : List Byte} (valid : IsToken word) : newline ∉ word :=
  valid.not_mem (by decide)

theorem IsBlank.no_newline {blanks : List Byte} (blank : IsBlank blanks) : newline ∉ blanks := by
  intro member
  rcases blank newline member with same | same <;> exact absurd same (by decide)

theorem Quoted.no_newline (quoted : Quoted) : newline ∉ quoted.render := by
  cases quoted with
  | plain byte valid => exact valid.2.2.2
  | escaped byte valid =>
      rw [Quoted.render, List.mem_cons]
      exact not_or.mpr ⟨by decide, valid.2⟩

theorem Value.no_newline (value : Value) : newline ∉ value.render := by
  cases value with
  | token word valid => exact valid.no_newline
  | quoted content =>
      rw [Value.render, List.mem_cons, List.mem_append, List.mem_singleton, List.mem_flatMap]
      rintro (same | ⟨quoted, -, member⟩ | same)
      · exact absurd same (by decide)
      · exact quoted.no_newline member
      · exact absurd same (by decide)

theorem Parameter.no_newline (parameter : Parameter) : newline ∉ parameter.render := by
  have blanks := parameter.blank.no_newline
  rw [List.mem_append, not_or] at blanks
  simp only [Parameter.render, Parameter.lead, List.mem_append, List.mem_cons]
  rintro ((member | same | member) | member | same | member)
  · exact blanks.1 member
  · exact absurd same (by decide)
  · exact blanks.2 member
  · exact parameter.named.no_newline member
  · exact absurd same (by decide)
  · exact parameter.value.no_newline member

theorem MediaType.no_newline (mediaType : MediaType) : newline ∉ mediaType.render := by
  simp only [MediaType.render, MediaType.essence, List.mem_append, List.mem_cons,
    List.mem_flatMap]
  rintro ((member | same | member) | ⟨parameter, -, member⟩)
  · exact mediaType.typed.no_newline member
  · exact absurd same (by decide)
  · exact mediaType.subtyped.no_newline member
  · exact parameter.no_newline member

theorem Field.no_newline (field : Field) : newline ∉ field.render := by
  simp only [Field.render, List.mem_append, List.mem_cons]
  rintro (member | same | member | member)
  · exact field.named.no_newline member
  · exact absurd same (by decide)
  · exact field.blank.no_newline member
  · revert member
    cases field.content with
    | other content valid => exact valid.2
    | media mediaType => exact mediaType.no_newline

end AsyncRuntime.Io.ResponseHeader
