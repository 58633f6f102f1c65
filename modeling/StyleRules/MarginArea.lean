import StyleRules.Text.AsciiCase

/-!
# Margin boxes

Sixteen boxes surround the area of a page. They have fixed names, in which the
case of letters does not matter.
-/

namespace StyleRules

inductive MarginArea where
  | topLeftCorner
  | topLeft
  | topCenter
  | topRight
  | topRightCorner
  | bottomLeftCorner
  | bottomLeft
  | bottomCenter
  | bottomRight
  | bottomRightCorner
  | leftTop
  | leftMiddle
  | leftBottom
  | rightTop
  | rightMiddle
  | rightBottom
deriving DecidableEq, Repr

namespace MarginArea

def all : List MarginArea :=
  [topLeftCorner, topLeft, topCenter, topRight, topRightCorner,
    bottomLeftCorner, bottomLeft, bottomCenter, bottomRight, bottomRightCorner,
    leftTop, leftMiddle, leftBottom, rightTop, rightMiddle, rightBottom]

def name : MarginArea → String
  | topLeftCorner => "top-left-corner"
  | topLeft => "top-left"
  | topCenter => "top-center"
  | topRight => "top-right"
  | topRightCorner => "top-right-corner"
  | bottomLeftCorner => "bottom-left-corner"
  | bottomLeft => "bottom-left"
  | bottomCenter => "bottom-center"
  | bottomRight => "bottom-right"
  | bottomRightCorner => "bottom-right-corner"
  | leftTop => "left-top"
  | leftMiddle => "left-middle"
  | leftBottom => "left-bottom"
  | rightTop => "right-top"
  | rightMiddle => "right-middle"
  | rightBottom => "right-bottom"

def ofName? (text : String) : Option MarginArea :=
  all.find? fun area => Text.sameName area.name text

def index (area : MarginArea) : Nat :=
  all.idxOf area

theorem mem_all (area : MarginArea) : area ∈ all := by
  cases area <;> decide

theorem ofName?_name (area : MarginArea) : ofName? area.name = some area := by
  cases area <;> decide

theorem name_injective {first second : MarginArea} (same : first.name = second.name) :
    first = second := by
  have found := congrArg ofName? same
  rw [ofName?_name, ofName?_name] at found
  exact Option.some.inj found

theorem toLower_name (area : MarginArea) : area.name.toLower = area.name := by
  apply String.toList_injective
  rw [String.toList_toLower]
  cases area <;> decide

end MarginArea

end StyleRules
