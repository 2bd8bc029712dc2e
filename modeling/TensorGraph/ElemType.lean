/-!
# Element types

The types that one element of a tensor can have. Each has a numeric code, under which files
store it, a name for people, a keyword for configuration text, and, strings apart, a width.
-/

namespace TensorGraph

inductive ElemType where
  | float | uint8 | int8 | uint16 | int16 | int32 | int64 | string | bool
  | float16 | double | uint32 | uint64 | complex64 | complex128 | bfloat16
  | float8e4m3fn | float8e4m3fnuz | float8e5m2 | float8e5m2fnuz
  | uint4 | int4 | float4e2m1 | float8e8m0 | uint2 | int2
deriving DecidableEq, Repr, Inhabited

namespace ElemType

def all : List ElemType :=
  [float, uint8, int8, uint16, int16, int32, int64, string, bool,
   float16, double, uint32, uint64, complex64, complex128, bfloat16,
   float8e4m3fn, float8e4m3fnuz, float8e5m2, float8e5m2fnuz,
   uint4, int4, float4e2m1, float8e8m0, uint2, int2]

/-- The code under which a file stores the type; zero stands for no type at all. -/
def code : ElemType → Nat
  | float => 1 | uint8 => 2 | int8 => 3 | uint16 => 4 | int16 => 5 | int32 => 6
  | int64 => 7 | string => 8 | bool => 9 | float16 => 10 | double => 11 | uint32 => 12
  | uint64 => 13 | complex64 => 14 | complex128 => 15 | bfloat16 => 16
  | float8e4m3fn => 17 | float8e4m3fnuz => 18 | float8e5m2 => 19 | float8e5m2fnuz => 20
  | uint4 => 21 | int4 => 22 | float4e2m1 => 23 | float8e8m0 => 24 | uint2 => 25 | int2 => 26

def ofCode? (c : Int) : Option ElemType :=
  all.find? fun t => (t.code : Int) == c

theorem ofCode?_code (t : ElemType) : ofCode? t.code = some t := by
  cases t <;> rfl

theorem ofCode?_eq_some_iff {c : Int} {t : ElemType} : ofCode? c = some t ↔ c = t.code := by
  constructor
  · intro h
    exact (by simpa using List.find?_some h : (t.code : Int) = c).symm
  · rintro rfl
    exact ofCode?_code t

/-- The width of one element in bits; strings have none. -/
def bits? : ElemType → Option Nat
  | uint2 | int2 => some 2
  | uint4 | int4 | float4e2m1 => some 4
  | bool | uint8 | int8 | float8e4m3fn | float8e4m3fnuz | float8e5m2 | float8e5m2fnuz
  | float8e8m0 => some 8
  | uint16 | int16 | float16 | bfloat16 => some 16
  | float | int32 | uint32 => some 32
  | double | int64 | uint64 | complex64 => some 64
  | complex128 => some 128
  | string => none

/-- Whether elements are real floating-point numbers, of whatever width. -/
def isFloat : ElemType → Bool
  | float | float16 | bfloat16 | double | float8e4m3fn | float8e4m3fnuz | float8e5m2
  | float8e5m2fnuz | float8e8m0 | float4e2m1 => true
  | _ => false

/-- The word for the type in configuration text. -/
def keyword : ElemType → String
  | float => "float" | uint8 => "uint8" | int8 => "int8" | uint16 => "uint16"
  | int16 => "int16" | int32 => "int32" | int64 => "int64" | string => "string"
  | bool => "bool" | float16 => "float16" | double => "double" | uint32 => "uint32"
  | uint64 => "uint64" | complex64 => "complex64" | complex128 => "complex128"
  | bfloat16 => "bfloat16" | float8e4m3fn => "float8e4m3fn"
  | float8e4m3fnuz => "float8e4m3fnuz" | float8e5m2 => "float8e5m2"
  | float8e5m2fnuz => "float8e5m2fnuz" | uint4 => "uint4" | int4 => "int4"
  | float4e2m1 => "float4e2m1" | float8e8m0 => "float8e8m0" | uint2 => "uint2" | int2 => "int2"

/-- The name shown to people: the keyword, with the width spelled out for the two common floats. -/
def name : ElemType → String
  | float => "float32"
  | double => "float64"
  | t => t.keyword

def ofKeyword? (word : String) : Option ElemType :=
  all.find? fun t => t.keyword == word

end ElemType

end TensorGraph
