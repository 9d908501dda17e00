import BridgeNames.Descriptor.Method
import BridgeNames.Json.Choice
import BridgeNames.Json.Record

/-!
# Descriptions from JSON

The shapes of descriptions. Each reader is given the levels of containers that may still be
opened; an enclosing type, an element or a bound is read with fewer, so reading ends.
-/

namespace BridgeNames

open Json

/-! ### Declared types -/

/-- A declared type while its fields are read. -/
structure DeclaredDraft where
  declaration : Declaration
  enclosing : Option DeclaredType

namespace DeclaredDraft

/-- Nothing has been read yet. -/
def blank : DeclaredDraft := ⟨{ binaryName := "", simpleName := "" }, none⟩

/-- Changes the declaration. -/
def modify (change : Declaration → Declaration) (draft : DeclaredDraft) : DeclaredDraft :=
  { draft with declaration := change draft.declaration }

/-- The type that has been read. -/
def type (draft : DeclaredDraft) : DeclaredType :=
  match draft.enclosing with
  | none => .topLevel draft.declaration
  | some e => .nested draft.declaration e

/-- The fields of a declared type, given how to read the enclosing one. -/
def record (readEnclosing : Reader DeclaredType) : Record DeclaredDraft where
  wanted := "struct TypeSymbol"
  fields := [
    .mandatory "qualifiedBinaryName" readString fun s => modify ({ · with binaryName := s }),
    .mandatory "simpleSourceName" readString fun s => modify ({ · with simpleName := s }),
    .defaulted "enclosing" (readOptional readEnclosing) fun e draft =>
      { draft with enclosing := e },
    .defaulted "packageName" (readOptional readString) fun s =>
      modify ({ · with packageName := s }),
    .defaulted "objcName" (readOptional readString) fun s => modify ({ · with objcName := s }),
    .defaulted "objcNamePrefix" (readOptional readString) fun s =>
      modify ({ · with objcPrefix := s })]

end DeclaredDraft

/-- **Reads a declared type**; the enclosing one may open a level less. -/
def DeclaredType.read : Nat → Reader DeclaredType
  | 0, tree => readTooDeep "struct TypeSymbol" tree
  | levels + 1, tree => do
    let draft ← (DeclaredDraft.record (DeclaredType.read levels)).read .blank tree
    return draft.type

/-! ### Uses of types -/

/-- Reads a primitive. -/
def Primitive.read : Nat → Reader Primitive :=
  readChoice (Primitive.all.map fun kind => .plain kind.keyword kind)

namespace TypeUse

/-- The fields of an array layer, filled into the element and the dimensions. -/
def arrayRecord (readElement : Reader TypeUse) : Record (TypeUse × UInt32) where
  wanted := "struct variant TypeReference::Array"
  fields := [
    .mandatory "element" readElement fun element layer => (element, layer.2),
    .mandatory "dimensions" readUInt32 fun dimensions layer => (layer.1, dimensions)]

/-- The field of a type variable. -/
def variableRecord (readBound : Reader TypeUse) : Record TypeUse where
  wanted := "struct variant TypeReference::TypeVariable"
  fields := [.mandatory "upperBound" readBound fun bound _ => bound]

/-- What an array layer and a type variable are filled into; both have to be given all of their
fields. -/
def blank : TypeUse := primitive .void

/-- The kinds of uses, given how to read what stands two levels further in. -/
def variants (readInner : Reader TypeUse) : List (Variant TypeUse) := [
  .holding "primitive" "newtype variant" fun levels tree =>
    primitive <$> Primitive.read levels tree,
  .holding "array" "struct variant" fun levels tree =>
    match levels with
    | 0 => readTooDeep (arrayRecord readInner).wanted tree
    | _ + 1 => do
      let (element, dimensions) ← (arrayRecord readInner).read (blank, 0) tree
      return array element dimensions,
  .holding "declared" "newtype variant" fun levels tree =>
    declared <$> DeclaredType.read levels tree,
  .holding "typeVariable" "struct variant" fun levels tree =>
    match levels with
    | 0 => readTooDeep (variableRecord readInner).wanted tree
    | _ + 1 => typeVariable <$> (variableRecord readInner).read blank tree]

/-- **Reads a use of a type.** The choice takes one level and its content another, so what stands
within may open two levels less. -/
def read : Nat → Reader TypeUse
  | 0, tree => readChoice (variants fun _ => fail .malformed) 0 tree
  | 1, tree => readChoice (variants fun _ => fail .malformed) 1 tree
  | levels + 2, tree => readChoice (variants (read levels)) (levels + 2) tree

end TypeUse

/-! ### Methods -/

/-- Reads a visibility. -/
def Visibility.read : Nat → Reader Visibility :=
  readChoice (Visibility.all.map fun v => .plain v.keyword v)

/-- The fields of a parameter, whose type may open the given levels. -/
def Parameter.record (levels : Nat) : Record Parameter where
  wanted := "struct Parameter"
  fields := [
    .mandatory "name" readString fun s p => { p with name := s },
    .mandatory "type" (TypeUse.read levels) fun use p => { p with type := use }]

/-- Reads a parameter. -/
def Parameter.read : Nat → Reader Parameter
  | 0 => readTooDeep "struct Parameter"
  | levels + 1 => (Parameter.record levels).read { name := "", type := .blank }

/-- The fields of a method, whose parts may open the given levels. -/
def Method.record (levels : Nat) : Record Method where
  wanted := "struct MethodSymbol"
  fields := [
    .mandatory "name" readString fun s m => { m with name := s },
    .defaulted "parameters" (readList Parameter.read levels) fun ps m =>
      { m with parameters := ps },
    .defaulted "isConstructor" readBool fun b m => { m with isConstructor := b },
    .defaulted "visibility" (Visibility.read levels) fun v m => { m with visibility := v },
    .defaulted "objcName" (readOptional readString) fun s m => { m with selector := s },
    .defaulted "isSyntheticOverride" readBool fun b m => { m with isGeneratedOverride := b }]

/-- **Reads a method.** -/
def Method.read : Nat → Reader Method
  | 0 => readTooDeep "struct MethodSymbol"
  | levels + 1 => (Method.record levels).read { name := "" }

end BridgeNames
