import NoteTemplate.Json.Numeral
import NoteTemplate.Json.Quoted

/-!
# Writing JSON

* `Value.compact`: a value without any space.
* `Value.pretty`: every element and member on a line of its own, indented by two blanks per
  level. An array or object that is empty stays on its line.
-/

namespace NoteTemplate.Json.Value

/-- A value that is neither an array nor an object. -/
def scalar : Value → Text
  | bool true => ['t', 'r', 'u', 'e']
  | bool false => ['f', 'a', 'l', 's', 'e']
  | number n => n.render.toList
  | string s => Quoted.write s
  | _ => ['n', 'u', 'l', 'l']

mutual

/-- A value without any space. -/
def compact : Value → Text
  | array vs => '[' :: [','].intercalate (compactElements vs) ++ [']']
  | object ms => '{' :: [','].intercalate (compactMembers ms) ++ ['}']
  | v => scalar v

def compactElements : List Value → List Text
  | [] => []
  | v :: vs => compact v :: compactElements vs

def compactMembers : List (Text × Value) → List Text
  | [] => []
  | (name, v) :: ms => (Quoted.write name ++ ':' :: compact v) :: compactMembers ms

end

/-- A line feed and the indentation of a level. -/
def newLine (level : Nat) : Text := '\n' :: List.replicate (2 * level) ' '

/-- Texts on lines of their own, between an opening and a closing character. -/
def block (level : Nat) (opening closing : Char) (lines : List Text) : Text :=
  if lines = [] then [opening, closing]
  else
    opening :: newLine (level + 1) ++ (',' :: newLine (level + 1)).intercalate lines ++
      newLine level ++ [closing]

mutual

/-- A value that stands at a level of indentation. -/
def indented (level : Nat) : Value → Text
  | array vs => block level '[' ']' (indentedElements (level + 1) vs)
  | object ms => block level '{' '}' (indentedMembers (level + 1) ms)
  | v => scalar v

def indentedElements (level : Nat) : List Value → List Text
  | [] => []
  | v :: vs => indented level v :: indentedElements level vs

def indentedMembers (level : Nat) : List (Text × Value) → List Text
  | [] => []
  | (name, v) :: ms =>
    (Quoted.write name ++ ':' :: ' ' :: indented level v) :: indentedMembers level ms

end

/-- A document on several lines. -/
def pretty (v : Value) : Text := indented 0 v

end NoteTemplate.Json.Value
