/-!
# Element identifiers

An element of a document is known by the slot it lives in and by the version of
that slot. A slot that is in use has an odd version, so every identifier has one.
The last slot never holds an element: an identifier that names it is null.
-/

namespace StyleRules

structure ElementId where
  index : UInt32
  version : UInt32
  version_odd : version &&& 1 = 1
deriving DecidableEq, Repr

namespace ElementId

def nullIndex : UInt32 := 4294967295

def null : ElementId :=
  ⟨nullIndex, 1, by decide⟩

def isNull (element : ElementId) : Bool :=
  element.index == nullIndex

theorem odd_of_or_one (version : UInt32) : (version ||| 1) &&& 1 = 1 := by
  apply UInt32.toBitVec_inj.1
  ext i bound
  simp
  grind

/-- The version is the upper half of the number, and the index is its lower half. -/
def toRaw (element : ElementId) : UInt64 :=
  element.version.toUInt64 <<< 32 ||| element.index.toUInt64

/-- Any number can be read; its version is made odd. -/
def ofRaw (raw : UInt64) : ElementId :=
  ⟨raw.toUInt32, (raw >>> 32).toUInt32 ||| 1, odd_of_or_one _⟩

/-- The index and the version, or the word null whatever the version is. -/
def render (element : ElementId) : String :=
  if element.isNull then "ElementId(null)"
  else "ElementId(" ++ toString element.index.toNat ++ "v" ++ toString element.version.toNat ++ ")"

end ElementId

end StyleRules
