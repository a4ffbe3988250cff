import ExternalTable.Fragment.Section

/-!
# Connectives at the top level of a fragment

Joining fragments by `AND` would tear apart a fragment with an `OR` outside all parentheses.

* `nesting`: the depth of parentheses after a character;
* `hasTopLevelOr`: whether a fragment has the connective `OR`, between single spaces, outside quoted
  sections and parentheses.  Text that ends within a quoted section counts as having one.
-/

namespace ExternalTable.Fragment

/-- The depth of parentheses after a character outside quoted sections.  Surplus closing parentheses
do not count. -/
def nesting (depth : Nat) : Char → Nat
  | '(' => depth + 1
  | ')' => depth - 1
  | _ => depth

/-- The connective that is looked for. -/
def orConnective : List Char := " OR ".toList

/-- Whether the rest of a text has a top-level `OR`, for a reader at a given place and depth. -/
def hasTopLevelOrFrom (d : Dialect) (place : Place) (depth offset : Nat) : List Char → Bool
  | [] => place.openedAt?.isSome
  | c :: rest =>
      let next := place.read d offset c
      if next = .outside then
        (depth == 0 && orConnective.isPrefixOf (c :: rest))
          || hasTopLevelOrFrom d next (nesting depth c) (offset + c.utf8Size) rest
      else
        hasTopLevelOrFrom d next depth (offset + c.utf8Size) rest

/-- Whether a fragment has an `OR` outside every parenthesis and quoted section. -/
def hasTopLevelOr (d : Dialect) (fragment : Sql) : Bool :=
  hasTopLevelOrFrom d .outside 0 0 fragment

end ExternalTable.Fragment
