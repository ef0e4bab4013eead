/-! # Tables of TOML

Values, and how a table is filled. A table may be written in several places of a document, and what
opened it decides where it may be filled further. Nothing is ever assigned twice.
-/

namespace LoadTiers.Toml

/-- What opened a table. -/
inductive Origin
  /-- Its own header. -/
  | header
  /-- The header of a table inside it. -/
  | implied
  /-- A dotted key. -/
  | dotted
  /-- Braces. -/
  | inline
  /-- A header of an array of tables. -/
  | element
  deriving DecidableEq

inductive Value
  | string (s : String)
  | integer (n : Int)
  /-- A floating-point number as it is written. -/
  | float (text : String)
  | boolean (b : Bool)
  | dateTime (text : String)
  | array (items : List Value)
  | table (origin : Origin) (entries : List (String × Value))
  /-- An array whose items have headers of their own. -/
  | tables (elements : List (List (String × Value)))
  deriving Inhabited

/-- What a table holds, in the order of writing. -/
abbrev Entries := List (String × Value)

abbrev Key := List String

namespace Entries

/-- Puts a value under a key, in the place of the value that is there. -/
def put (k : String) (v : Value) : Entries → Entries
  | [] => [(k, v)]
  | (k', v') :: es => if k' = k then (k, v) :: es else (k', v') :: put k v es

/-- Changes the table under a key, which has to be of an admitted origin. A missing table is opened,
and of an array of tables the last one is changed. -/
def within (k : String) (opens : Origin) (admits : Origin → Bool)
    (change : Entries → Option Entries) (es : Entries) : Option Entries :=
  match es.lookup k with
  | none => do return put k (.table opens (← change [])) es
  | some (.table origin inner) => do
    guard (admits origin)
    return put k (.table origin (← change inner)) es
  | some (.tables elements) => do
    guard (admits .element)
    return put k (.tables (elements.dropLast ++ [← change (← elements.getLast?)])) es
  | some _ => none

/-- Assigns a value. The tables on the way to it may not have been opened by a header or by braces,
and the table that gets it has to be the work of dotted keys. -/
def assign (v : Value) : Key → Entries → Option Entries
  | [], _ => none
  | [k], es => if (es.lookup k).isSome then none else some (put k v es)
  | k :: k' :: ks, es =>
    let admits : Origin → Bool
      | .dotted => true
      | .implied => ks ≠ []
      | .element => ks ≠ []
      | .header => false
      | .inline => false
    within k .dotted admits (assign v (k' :: ks)) es

def fill (assignments : List (Key × Value)) (es : Entries) : Option Entries :=
  assignments.foldlM (fun es (k, v) => assign v k es) es

def atHeader (change : Option Value → Option Value) : Key → Entries → Option Entries
  | [], _ => none
  | [k], es => do return put k (← change (es.lookup k)) es
  | k :: k' :: ks, es => within k .implied (· ≠ .inline) (atHeader change (k' :: ks)) es

/-- Opens the table of a header and fills it. Only headers may have named it before. -/
def openTable (assignments : List (Key × Value)) : Option Value → Option Value
  | none => (fill assignments []).map (.table .header)
  | some (.table .implied es) => (fill assignments es).map (.table .header)
  | some _ => none

def openElement (assignments : List (Key × Value)) : Option Value → Option Value
  | none => do return .tables [← fill assignments []]
  | some (.tables elements) => do return .tables (elements ++ [← fill assignments []])
  | some _ => none

end Entries

end LoadTiers.Toml
