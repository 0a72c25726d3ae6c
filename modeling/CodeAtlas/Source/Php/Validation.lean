import CodeAtlas.Text.Block

/-!
# Keys of validation rules

A controller may list its validation rules in a nested array: under each entity, by HTTP method.
The walk finds each method with its entity. Comments are skipped, and a literal counts as a key only
in front of an arrow.
-/

namespace CodeAtlas.Source.Php

open Text

/-- A method under an entity, with the byte offset of the method's key. -/
structure RuleKey where
  entity : String
  method : String
  offset : Nat
  deriving DecidableEq, Repr

/-- The HTTP methods that rules can be given for. -/
def httpMethods : List String := ["GET", "POST", "PUT", "PATCH", "DELETE", "HEAD", "OPTIONS"]

/-- A place in an array: the entity whose rules are read and the depth of brackets. -/
structure RulePlace where
  entity? : Option String := none
  depth : Int := 0
  deriving DecidableEq, Repr

/-- The place behind a bracket or another plain character. -/
def RulePlace.after (p : RulePlace) (c : Char) : RulePlace :=
  if c = '(' ∨ c = '[' then { p with depth := p.depth + 1 }
  else if c = ')' ∨ c = ']' then { p with depth := p.depth - 1 }
  else p

/-- The place behind a key: a key of the outermost array names an entity. -/
def RulePlace.afterKey (p : RulePlace) (key : String) : RulePlace :=
  if p.depth = 0 then { p with entity? := some key } else p

/-- What a key at a place gives: a key right below an entity may name a method. -/
def RulePlace.key? (p : RulePlace) (key : String) (offset : Nat) : Option RuleKey :=
  let method := asciiUppered key
  if p.depth = 1 && httpMethods.contains method then
    p.entity?.map fun entity => { entity, method, offset }
  else none

/-- The text behind a comment at its head, if there is one. A comment that ends with its line leaves
the line break. -/
def afterComment? : List Char → Option (List Char)
  | '#' :: rest => some (rest.dropWhile (· != '\n'))
  | '/' :: '/' :: rest => some (rest.dropWhile (· != '\n'))
  | '/' :: '*' :: rest => some (((cut? ['*', '/'] ('*' :: rest)).map (·.2)).getD [])
  | _ => none

/-- Whether an arrow follows, so that what stands in front of it is a key. -/
def arrowFollows (text : List Char) : Bool := startsWith (trimStart text) ['=', '>']

/-- The end of a literal at the head of a text, with its size, or the end of the text. -/
def literalAt (quote : Char) (rest : List Char) : Nat × List Char :=
  (literalEnd? quote quote.utf8Size rest).getD (byteLength (quote :: rest), [])

theorem length_le_of_cut? {word text : List Char} {p : List Char × List Char}
    (h : cut? word text = some p) : p.2.length ≤ text.length := by
  obtain ⟨front, rest⟩ := p
  rw [eq_append_of_cut? h]
  simp
  omega

/-- A comment takes at least one character. -/
theorem length_lt_of_afterComment? {text rest : List Char} (h : afterComment? text = some rest) :
    rest.length < text.length := by
  unfold afterComment? at h
  split at h
  · next more =>
    cases h
    exact Nat.lt_succ_of_le (List.dropWhile_suffix _).length_le
  · next more =>
    cases h
    have := (List.dropWhile_suffix (fun c => c != '\n') (l := more)).length_le
    simp
    omega
  · next more =>
    cases h
    cases hc : cut? ['*', '/'] ('*' :: more) with
    | none => simp
    | some p =>
        have := length_le_of_cut? hc
        simp at this ⊢
        omega
  · cases h

/-- What follows a literal is no longer than what follows its first quote. -/
theorem length_literalAt_le (quote : Char) (rest : List Char) :
    (literalAt quote rest).2.length ≤ rest.length := by
  unfold literalAt
  cases h : literalEnd? quote quote.utf8Size rest with
  | none => simp
  | some p =>
      obtain ⟨n, more⟩ := p
      exact length_le_of_literalEnd? h

/-- The rule keys of a text that starts at a byte offset, read from a place. -/
def ruleKeysFrom (p : RulePlace) (offset : Nat) (text : List Char) : List RuleKey :=
  match _h : afterComment? text with
  | some rest => ruleKeysFrom p (offset + (byteLength text - byteLength rest)) rest
  | none =>
      match text with
      | [] => []
      | c :: rest =>
          if c = '\'' ∨ c = '"' then
            let literal := literalAt c rest
            let next := offset + literal.1
            let key := String.ofList (unquote (takeBytes literal.1 (c :: rest)))
            if arrowFollows literal.2 then
              (p.key? key offset).toList ++ ruleKeysFrom (p.afterKey key) next literal.2
            else ruleKeysFrom p next literal.2
          else ruleKeysFrom (p.after c) (offset + c.utf8Size) rest
termination_by text.length
decreasing_by
  · exact length_lt_of_afterComment? _h
  all_goals first
    | exact Nat.lt_succ_of_le (length_literalAt_le c rest)
    | simp

/-- The rule keys of the body of an array that starts at a byte offset. -/
def ruleKeys (body : List Char) (offset : Nat) : List RuleKey := ruleKeysFrom {} offset body

end CodeAtlas.Source.Php
