/-!
# Faults of an expression

Why a text is no expression.
-/

namespace Routing.Regex

/-- Why a text is no expression. -/
inductive Fault where
  /-- A group is not closed. -/
  | groupUnclosed
  /-- A closing parenthesis closes no group. -/
  | groupUnopened
  /-- Looking ahead or behind is not supported. -/
  | lookAround
  /-- The name of a group is empty, unclosed or holds a character that names do not. -/
  | groupName
  /-- Two groups have one name. -/
  | groupNameTwice
  /-- A flag group is empty or unclosed. -/
  | flagGroup
  /-- A letter names no flag. -/
  | flagUnknown
  /-- A flag or the negation sign stands twice in one group, or nothing follows the sign. -/
  | flagTwice
  | operandMissing
  /-- The count of a repetition is unclosed or no number. -/
  | count
  /-- The greatest count is less than the least. -/
  | countOrder
  /-- A class is not closed. -/
  | classUnclosed
  /-- The ends of a range are no characters or in the wrong order. -/
  | classRange
  /-- An escape that is no member of a class. -/
  | classItem
  /-- An escape that nothing is known by, or the end of the text after a backslash. -/
  | escape
  | backReference
  /-- A hexadecimal escape is incomplete or names no character. -/
  | hex
  /-- A property that nothing is known by, or one that is named without the flag `u`. -/
  | property
  /-- The name in a word boundary is unknown or unclosed. -/
  | boundary
  /-- The expression nests too deep. -/
  | nesting
  /-- The expression could match something that is no text. -/
  | notText
  /-- The expression is too large. -/
  | size
deriving DecidableEq

end Routing.Regex
