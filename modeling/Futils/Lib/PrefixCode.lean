import Mathlib.Data.List.Basic

/-!
# Prefix codes and their decoding trees

A decoding tree is grown by inserting one code word after another; an insertion fails when the new
word and an earlier one are prefixes of each other.  A tree that was grown without a failure decodes
each of its code words, whatever follows it.
-/

namespace Futils.Lib.PrefixCode

/-- A binary decoding tree. -/
inductive CodeTree (α : Type*) where
  | empty
  | leaf (value : α)
  | node (zero one : CodeTree α)
  deriving DecidableEq

/-- Why following bits through a tree ends without a value. -/
inductive Stop where
  | deadEnd
  | outOfBits
  deriving DecidableEq

variable {α : Type*}

namespace CodeTree

/-- Add a code word; `none` if it collides with one already in the tree. -/
def insert : CodeTree α → List Bool → α → Option (CodeTree α)
  | empty, [], value => some (leaf value)
  | empty, false :: code, value => (insert empty code value).map (node · empty)
  | empty, true :: code, value => (insert empty code value).map (node empty)
  | leaf _, _, _ => none
  | node _ _, [], _ => none
  | node zero one, false :: code, value => (insert zero code value).map (node · one)
  | node zero one, true :: code, value => (insert one code value).map (node zero)

/-- Add a list of code words in order. -/
def insertAll : CodeTree α → List (List Bool × α) → Option (CodeTree α)
  | tree, [] => some tree
  | tree, (code, value) :: words => (tree.insert code value).bind (insertAll · words)

/-- Follow bits from the root to a leaf; the value there and the bits left over. -/
def walk : CodeTree α → List Bool → Except Stop (α × List Bool)
  | empty, _ => .error .deadEnd
  | leaf value, bits => .ok (value, bits)
  | node _ _, [] => .error .outOfBits
  | node zero _, false :: bits => walk zero bits
  | node _ one, true :: bits => walk one bits

theorem walk_insert {tree grown : CodeTree α} {code : List Bool} {value : α} (rest : List Bool)
    (inserted : tree.insert code value = some grown) :
    grown.walk (code ++ rest) = .ok (value, rest) := by
  fun_induction insert tree code value generalizing grown with
  | case1 => cases inserted; rfl
  | case4 | case5 => cases inserted
  | case2 code value ih | case3 code value ih | case6 zero one code value ih
  | case7 zero one code value ih =>
    obtain ⟨_, insertedChild, rfl⟩ := Option.map_eq_some_iff.1 inserted
    exact ih insertedChild

theorem walk_of_insert {tree grown : CodeTree α} {code bits : List Bool} {value : α}
    {found : α × List Bool} (inserted : tree.insert code value = some grown)
    (walked : tree.walk bits = .ok found) : grown.walk bits = .ok found := by
  fun_induction insert tree code value generalizing grown bits with
  | case1 | case2 | case3 => cases walked
  | case4 | case5 => cases inserted
  | case6 zero one code value ih =>
    obtain ⟨child, insertedChild, rfl⟩ := Option.map_eq_some_iff.1 inserted
    match bits with
    | [] => cases walked
    | false :: bits => exact @ih child bits insertedChild walked
    | true :: bits => exact walked
  | case7 zero one code value ih =>
    obtain ⟨child, insertedChild, rfl⟩ := Option.map_eq_some_iff.1 inserted
    match bits with
    | [] => cases walked
    | false :: bits => exact walked
    | true :: bits => exact @ih child bits insertedChild walked

theorem walk_of_insertAll {tree grown : CodeTree α} {words : List (List Bool × α)} {bits : List Bool}
    {found : α × List Bool} (inserted : tree.insertAll words = some grown)
    (walked : tree.walk bits = .ok found) : grown.walk bits = .ok found := by
  induction words generalizing tree with
  | nil => cases inserted; exact walked
  | cons word words ih =>
    obtain ⟨_, first, others⟩ := Option.bind_eq_some_iff.1 inserted
    exact ih others (walk_of_insert first walked)

/-- A tree grown without a collision decodes each of its code words. -/
theorem walk_insertAll {tree grown : CodeTree α} {words : List (List Bool × α)}
    {word : List Bool × α} (inserted : tree.insertAll words = some grown) (rest : List Bool)
    (member : word ∈ words) : grown.walk (word.1 ++ rest) = .ok (word.2, rest) := by
  induction words generalizing tree with
  | nil => cases member
  | cons head words ih =>
    obtain ⟨_, first, others⟩ := Option.bind_eq_some_iff.1 inserted
    cases member with
    | head => exact walk_of_insertAll others (walk_insert rest first)
    | tail _ later => exact ih others later

end CodeTree

end Futils.Lib.PrefixCode
