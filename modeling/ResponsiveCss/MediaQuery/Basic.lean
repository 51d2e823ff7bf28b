-- Media queries: what they ask for, and how they are read. A list of queries
-- asks for any of them; a query asks for a type of medium, for conditions on
-- its features, or for both. Conditions on containers are read alike.
import ResponsiveCss.MediaQuery.Value

namespace ResponsiveCss

/-! ## Features and conditions -/

/-- A test on one feature. Names are texts. -/
inductive FeatureTest where
  /-- The medium has the feature at all. -/
  | has (name : List Char)
  /-- The feature has this value. -/
  | is (name : List Char) (value : FeatureValue)
  /-- The feature compares like this with the value. -/
  | compares (name : List Char) (how : Comparison) (value : FeatureValue)
  /-- The feature lies between two values, `low how name how' high`. -/
  | between (low : FeatureValue) (how : Comparison) (name : List Char) (how' : Comparison)
      (high : FeatureValue)
deriving Repr

/-- The two ways to join conditions. -/
inductive Junction where
  | all
  | any
deriving DecidableEq, Repr

/-- The word that joins conditions in this way. -/
def Junction.word : Junction → String
  | .all => "and"
  | .any => "or"

/-- A condition on features. -/
inductive Condition where
  | test (t : FeatureTest)
  /-- A property is set, or set to a value; the text of that. -/
  | set (text : List Char)
  /-- A condition on the properties of a container. -/
  | style (c : Condition)
  | negation (c : Condition)
  | joined (how : Junction) (first : Condition) (others : List Condition)
deriving Repr

/-! ## Queries -/

/-- What may stand before the type of a medium. -/
inductive Qualifier where
  | negated
  | only
deriving DecidableEq, Repr

/-- The type of a medium. -/
inductive MediaType where
  | all
  | print
  | screen
  | other (name : List Char)
deriving DecidableEq, Repr

/-- The types that are known by name. -/
def MediaType.names : List (String × MediaType) :=
  [("all", .all), ("print", .print), ("screen", .screen)]

/-- The type with a name, in whatever case. -/
def MediaType.named (name : List Char) : MediaType :=
  match names.find? fun t => Text.sameLetters t.1.toList name with
  | some t => t.2
  | none => .other name

/-- A media query. -/
structure MediaQuery where
  qualifier : Option Qualifier
  mediaType : MediaType
  condition : Option Condition
deriving Repr

namespace MediaQuery

/-! ## Refusals -/

/-- Why components are no query. -/
inductive Refusal where
  /-- They end where something must follow. -/
  | ended
  /-- A feature is tested for what it cannot be. -/
  | misfit
  /-- Something else stands where a part of the query must come. -/
  | unexpected
deriving DecidableEq, Repr

/-- The refusal of the first component, where it can be no part of a query. -/
def Refusal.atFront : List Component → Refusal
  | [] => .ended
  | _ => .unexpected

/-! ## Reading tests -/

/-- A comparison and the components behind it. White space may stand between its two signs. -/
def comparison? : List Component → Option (Comparison × List Component)
  | [] => none
  | c :: rest =>
    let orEqual (strict loose : Comparison) : Comparison × List Component :=
      match rest with
      | d :: more => if d.isDelim '=' then (loose, more) else (strict, rest)
      | [] => (strict, rest)
    if c.isDelim '<' then some (orEqual .less .lessEqual)
    else if c.isDelim '>' then some (orEqual .greater .greaterEqual)
    else if c.isDelim '=' then some (.equal, rest)
    else none

/-- Both comparisons point the same way, up or down. -/
def sameDirection : Comparison → Comparison → Bool
  | .less, .less | .less, .lessEqual | .lessEqual, .less | .lessEqual, .lessEqual => true
  | .greater, .greater | .greater, .greaterEqual => true
  | .greaterEqual, .greater | .greaterEqual, .greaterEqual => true
  | _, _ => false

/-- A colon or a comparison, and the components behind it. -/
def sign? : List Component → Option (Option Comparison × List Component)
  | [] => none
  | c :: rest =>
    if c.isToken .colon then some (none, rest)
    else (comparison? (c :: rest)).map fun (how, rest) => (some how, rest)

/-- A value of a feature and the components behind it. -/
def readValue (k : Feature.Kind) (cs : List Component) :
    Except Refusal (FeatureValue × List Component) :=
  match FeatureValue.read k cs with
  | some r => .ok r
  | none => .error (.atFront cs)

/-- The test of a feature against a value, behind the name and a colon or a comparison. -/
def compared (f : Feature.Named) (how : Option Comparison) (v : FeatureValue) :
    Except Refusal FeatureTest :=
  if !v.kind.fits f.kind then .error .misfit
  else
    match how.or f.bound with
    | none => .ok (.is f.text v)
    | some how => if f.kind.isOrdered then .ok (.compares f.text how v) else .error .misfit

/-- A test that begins with the name of its feature, and the components behind it. A name with a
bound takes a colon. -/
def readNamedTest (known : Feature.Known) :
    List Component → Except Refusal (FeatureTest × List Component)
  | [] => .error .ended
  | c :: rest =>
    match Feature.read? known c with
    | none => .error .unexpected
    | some f =>
      match sign? rest with
      | none => .ok (.has f.text, rest)
      | some (how, more) =>
        if how.isSome && f.bound.isSome then .error .misfit
        else do
          let (v, rest) ← readValue f.kind more
          return (← compared f how v, rest)

/-- The end of a test between two values, behind the name of its feature. -/
def upperEnd (f : Feature.Named) (low : FeatureValue) (how : Comparison) (cs : List Component) :
    Except Refusal (FeatureTest × List Component) :=
  match comparison? cs with
  | none => .ok (.compares f.text how.flipped low, cs)
  | some (how', more) =>
    if !sameDirection how how' then .error .misfit
    else do
      let (high, rest) ← readValue f.kind more
      if high.kind.fits f.kind then return (.between low how f.text how' high, rest)
      else .error .misfit

/-- A test that begins with a value, and the components behind it. The first name in it says
what kind of value that is. -/
def readValueTest (known : Feature.Known) (cs : List Component) :
    Except Refusal (FeatureTest × List Component) :=
  match cs.findSome? (Feature.read? known) with
  | none => .error .misfit
  | some f =>
    if f.bound.isSome then .error .misfit
    else do
      let (low, rest) ← readValue f.kind cs
      match comparison? rest with
      | none => .error (.atFront rest)
      | some (how, rest) =>
        match rest with
        | [] => .error .ended
        | c :: rest =>
          if c.name?.isNone then .error .unexpected
          else if !f.kind.isOrdered || !low.kind.fits f.kind then .error .misfit
          else upperEnd f low how rest

/-- The test between two parentheses. A misfit is final, and so is a name with something
behind its test that does not belong there. -/
def readTest (known : Feature.Known) (cs : List Component) : Except Refusal FeatureTest := do
  let (t, rest) ←
    match readNamedTest known cs with
    | .ok r => .ok r
    | .error .misfit => .error .misfit
    | .error _ => readValueTest known cs
  if rest.isEmpty then return t else .error .unexpected

/-- The test of a property: its name, and perhaps a colon and a value. -/
def readSet : List Component → Except Refusal (List Char)
  | [] => .error .ended
  | c :: rest =>
    match c.name?, rest with
    | none, _ => .error .unexpected
    | some name, [] => .ok (Token.identText name)
    | some name, colon :: value =>
      match colon.isToken .colon, Value.plain? value with
      | true, some s => .ok (Token.identText name ++ ':' :: s)
      | _, _ => .error .unexpected

/-! ## Reading conditions -/

/-- What a condition is about. -/
inductive Subject where
  | medium
  | container
  /-- The properties of a container. -/
  | properties
deriving DecidableEq, Repr

/-- The test of a subject between two parentheses. -/
def Subject.readTest (s : Subject) (inside : List Component) : Except Refusal Condition :=
  match s with
  | .medium => (MediaQuery.readTest Feature.ofMedia inside).map .test
  | .container => (MediaQuery.readTest Feature.ofContainers inside).map .test
  | .properties => (readSet inside).map .set

/-- How a word joins conditions, if it does. -/
def junction? (c : Component) : Option Junction :=
  if c.isIdent "and" then some .all else if c.isIdent "or" then some .any else none

mutual

/-- What stands in parentheses: a condition or a test. One on the properties of a container has
`style` in front of it. -/
def readInParens (s : Subject) : Component → Except Refusal Condition
  | .token .. => .error .unexpected
  | .group _ opening inside =>
    if opening.kind = .opening .round then
      match readCondition s true inside with
      | .ok c => .ok c
      | .error _ => s.readTest inside
    else if s = .container && opening.kind = .call &&
        Text.sameLetters opening.callName "style".toList then
      match readCondition .properties true inside with
      | .ok c => .ok (.style c)
      | .error _ => (Subject.properties.readTest inside).map .style
    else .error .unexpected

/-- A condition. Only where `anyAllowed` may it be joined by `or`. -/
def readCondition (s : Subject) (anyAllowed : Bool) : List Component → Except Refusal Condition
  | [] => .error .ended
  | [c] => if c.isIdent "not" then .error .ended else readInParens s c
  | c :: d :: rest =>
    if c.isIdent "not" then
      match readInParens s d with
      | .error e => .error e
      | .ok n => if rest.isEmpty then .ok (.negation n) else .error .unexpected
    else
      match readInParens s c with
      | .error e => .error e
      | .ok first =>
        match junction? d with
        | none => .error .unexpected
        | some how =>
          if how = .any && !anyAllowed then .error .unexpected
          else (readOperands s how rest).map (.joined how first)

/-- Conditions in parentheses with the word of a junction between them, at least one. -/
def readOperands (s : Subject) (how : Junction) : List Component → Except Refusal (List Condition)
  | [] => .error .ended
  | [c] => (readInParens s c).map fun c => [c]
  | c :: d :: rest =>
    match readInParens s c with
    | .error e => .error e
    | .ok first =>
      if junction? d = some how then (readOperands s how rest).map (first :: ·)
      else .error .unexpected

end

/-! ## Reading queries -/

/-- The qualifier that a word is. -/
def qualifier? (c : Component) : Option Qualifier :=
  if c.isIdent "not" then some .negated else if c.isIdent "only" then some .only else none

/-- A query with a type of medium, from what stands behind the type. -/
def readTyped (qualifier : Option Qualifier) (type : List Char) :
    List Component → Except Refusal MediaQuery
  | [] => .ok ⟨qualifier, .named type, none⟩
  | c :: rest =>
    if c.isIdent "and" then
      (readCondition .medium false rest).map fun c => ⟨qualifier, .named type, some c⟩
    else .error .unexpected

/-- A query without a type of medium. -/
def readUntyped (cs : List Component) : Except Refusal MediaQuery :=
  (readCondition .medium true cs).map fun c => ⟨none, .all, some c⟩

/-- One media query. -/
def read : List Component → Except Refusal MediaQuery
  | [] => readUntyped []
  | c :: rest =>
    match qualifier? c with
    | some q =>
      match rest with
      | [] => readUntyped [c]
      | d :: more =>
        (d.name?.map fun type => readTyped (some q) type more).getD (readUntyped (c :: d :: more))
    | none => (c.name?.map fun type => readTyped none type rest).getD (readUntyped (c :: rest))

/-- Some media queries, one after the other. The last one is left out if it ends too soon. -/
def readAll? : List (List Component) → Option (List MediaQuery)
  | [] => some []
  | cs :: more =>
    match read cs with
    | .ok q => (readAll? more).map (q :: ·)
    | .error .ended => if more.isEmpty then some [] else none
    | .error _ => none

/-- A list of media queries between commas; it may be empty. -/
def readList? (cs : List Component) : Option (List MediaQuery) :=
  readAll? (Component.pieces .comma cs)

end MediaQuery

end ResponsiveCss
