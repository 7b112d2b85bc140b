import WebRtc.Lib.FixedWidth

/-!
# The engine's values

Error codes, byte buffers, strings and variants as the plugin meets them. A
dictionary is the list of its entries under string keys; entries under other
keys are never looked up. What the engine converts by rules of its own (a
vector to a string, say) is the parameter `Engine`.
-/

namespace WebRtc

open FixedWidth (toSigned)

inductive Error
  | ok
  | failed
  | unconfigured
  | unavailable
  | invalidParameter
  deriving DecidableEq, Repr

abbrev Bytes := List UInt8

inductive Build
  | gdextension
  | gdnative
  deriving DecidableEq, Repr

def utf8 (s : String) : Bytes := s.toByteArray.data.toList

/-- What a callee reads through a `const char *`: the bytes up to the first NUL. -/
def cString (bytes : Bytes) : Bytes := bytes.takeWhile (· != 0)

/-- `String(const char *)`: Latin-1 in godot-cpp, UTF-8 in the GDNative bindings. -/
def stringOfCString : Build → Bytes → String
  | .gdextension, bytes => String.ofList ((cString bytes).map fun b => Char.ofNat b.toNat)
  | .gdnative, bytes => (String.fromUTF8? ⟨(cString bytes).toArray⟩).getD ""

def memcpy (dest src : Bytes) (n : Nat) : Bytes := src.take n ++ dest.drop n

/-- `strncpy(dest, src, n)`: stops at the first NUL of `src` and pads with NULs. -/
def strncpy (dest src : Bytes) (n : Nat) : Bytes :=
  let copied := cString (src.take n)
  copied ++ List.replicate (n - copied.length) 0 ++ dest.drop n

-- ---------------------------------------------------------------------------
-- Variants
-- ---------------------------------------------------------------------------

inductive Variant
  | nil
  | bool (value : Bool)
  | int (value : Int)
  | string (value : String)
  | array (elements : List Variant)
  | dictionary (entries : List (String × Variant))
  | other (type : Nat)

abbrev Dictionary := List (String × Variant)

def Dictionary.has (d : Dictionary) (key : String) : Bool := (d.lookup key).isSome

def Dictionary.get (d : Dictionary) (key : String) : Variant := (d.lookup key).getD .nil

inductive VariantType
  | nil | bool | int | string | array | dictionary
  | other (type : Nat)
  deriving DecidableEq, Repr

def Variant.getType : Variant → VariantType
  | .nil => .nil
  | .bool _ => .bool
  | .int _ => .int
  | .string _ => .string
  | .array _ => .array
  | .dictionary _ => .dictionary
  | .other t => .other t

/-- The engine's own conversions, of the variants for which they are not the
obvious one. -/
structure Engine where
  booleanize : Variant → Bool
  toInt : Variant → Int
  stringify : Variant → String

def Variant.toBool (engine : Engine) : Variant → Bool
  | .bool b => b
  | .int n => n != 0
  | v => engine.booleanize v

/-- `operator int32_t`: the low 32 bits of the 64-bit integer. -/
def Variant.toInt32 (engine : Engine) : Variant → Int
  | .int n => toSigned 32 n
  | .bool b => if b then 1 else 0
  | v => toSigned 32 (engine.toInt v)

def Variant.toStr (engine : Engine) : Variant → String
  | .string s => s
  | v => engine.stringify v

def Variant.toArray : Variant → List Variant
  | .array elements => elements
  | _ => []

def Variant.toDictionary : Variant → Dictionary
  | .dictionary entries => entries
  | _ => []

end WebRtc
