import SymbolAtlas.Data.Toml.Number

/-
  Whole TOML texts.

  A text is a list of statements: a key with its value, or the
  head of a table, under which the keys after it stand. No value
  is given twice. Tables and lists that were written in one
  piece are closed, and so are tables that a head has opened.

  A text that is not as it must be is complained about. Only
  complaints with brackets in their wording are told apart, as
  brackets can be taken for tags where they are shown.

  Key definitions:
    * `Toml.Complaint`, `Toml.Complaint.text`
    * `Toml.readValue`
    * `Toml.Draft`, the tables put together so far
    * `Toml.parse`
-/

------------------------------------------------------------
-- Complaints
------------------------------------------------------------

namespace SymbolAtlas

namespace Toml

/- What a text of statements is complained about for. -/
inductive Complaint where
  | malformed
  | headNotClosed
  | itemNotClosed
  | declaredTwice (key : Key)
  | redefined (key : Key)
  | immutable (key : Key)
  | duplicate (name : String)
deriving DecidableEq, Repr

/- The names of a key in parentheses. -/
def shownKey : Key → String
| [name] => "(" ++ Quoted.ofText name ++ ",)"
| key => "(" ++ ", ".intercalate (key.map Quoted.ofText) ++ ")"

/- The wording of a complaint, without the place it is about. -/
def Complaint.text : Complaint → String
| .malformed => "Invalid statement"
| .headNotClosed =>
    "Expected ']' at the end of a table declaration"
| .itemNotClosed =>
    "Expected ']]' at the end of an array declaration"
| .declaredTwice key => "Cannot declare " ++ shownKey key ++ " twice"
| .redefined key => "Cannot redefine namespace " ++ shownKey key
| .immutable key =>
    "Cannot mutate immutable namespace " ++ shownKey key
| .duplicate name =>
    "Duplicate inline table key " ++ Quoted.ofText name

/- Something read from the front of a text, or a complaint. -/
abbrev Reading (α : Type) := Except Complaint (α × List Char)

/- What is not there is malformed. -/
def expect {α : Type} : Option α → Except Complaint α
| some value => .ok value
| none => .error .malformed

end Toml

end SymbolAtlas

------------------------------------------------------------
-- Tables
------------------------------------------------------------

namespace SymbolAtlas

namespace Toml

/- The fields of a table. -/
abbrev Fields := List (String × Datum)

/- A change to the fields of a table. -/
abbrev Change := Fields → Except Complaint Fields

/- The value that replaces the one of a key. -/
def setField (fields : Fields) (name : String) (value : Datum) :
    Fields :=
  Keyed.insertEntry name value fields

/-
  Change the table that a key leads to. Missing tables are
  made. A list leads on to its last table, if lists are open.
-/
def changeAt (openLists : Bool) : Key → Change → Change
| [], f, fields => f fields
| name :: rest, f, fields =>
    match Keyed.lookup name fields with
    | none =>
        (changeAt openLists rest f []).map
          fun inner => setField fields name (.record inner)
    | some (.record inner) =>
        (changeAt openLists rest f inner).map
          fun inner => setField fields name (.record inner)
    | some (.list items) =>
        match openLists, items.getLast? with
        | true, some (.record inner) =>
            (changeAt openLists rest f inner).map fun inner =>
              setField fields name
                (.list (items.dropLast ++ [.record inner]))
        | _, _ => .error .malformed
    | some _ => .error .malformed

/- Add a value that is not there yet. -/
def addNew
    (name : String)
    (value : Datum)
    (complaint : Complaint) : Change :=
  fun fields =>
    if (Keyed.lookup name fields).isSome then .error complaint
    else .ok (fields ++ [(name, value)])

/- Put a value at the end of a key, if there is none yet. -/
def insertAt
    (openLists : Bool)
    (key : Key)
    (value : Datum)
    (complaint : String → Complaint) : Change :=
  match key.getLast? with
  | some name =>
      changeAt openLists key.dropLast
        (addNew name value (complaint name))
  | none => fun _ => .error .malformed

/- Lists and tables that are written in one piece are closed. -/
def isCompound : Datum → Bool
| .list _ => true
| .record _ => true
| _ => false

/- The key lies in something that is closed. -/
def isWithin (closed : List Key) (key : Key) : Bool :=
  closed.any (·.isPrefixOf key)

end Toml

end SymbolAtlas

------------------------------------------------------------
-- Values
------------------------------------------------------------

namespace SymbolAtlas

namespace Toml

/- A value without parts. -/
def scalar? (text : List Char) : Read Datum :=
  match text with
  | 't' :: 'r' :: 'u' :: 'e' :: rest => some (.bool true, rest)
  | 'f' :: 'a' :: 'l' :: 's' :: 'e' :: rest =>
      some (.bool false, rest)
  | _ =>
      if (date? text).isSome || (clock? text).isSome then
        (moment? text).map fun (m, r) => (.moment m, r)
      else number? text

/- A string as a value. -/
def readString (text : List Char) : Reading Datum :=
  (expect (string? text)).map
    fun (s, r) => (.text (String.ofList s), r)

mutual

/- A value at the front of a text. -/
def readValue : (fuel : Nat) → List Char → Reading Datum
| 0, _ => .error .malformed
| fuel + 1, text =>
    match text with
    | '"' :: _ => readString text
    | '\'' :: _ => readString text
    | '[' :: rest =>
        (expect (gaps? rest)).bind fun bare =>
          (readItems fuel bare).map fun (vs, r) => (.list vs, r)
    | '{' :: rest =>
        match skipBlanks rest with
        | '}' :: after => .ok (.record [], after)
        | bare =>
            (readFields fuel [] [] bare).map
              fun (fs, r) => (.record fs, r)
    | _ => expect (scalar? text)

/- The items of a list, up to and past its bracket. -/
def readItems : (fuel : Nat) → List Char → Reading (List Datum)
| 0, _ => .error .malformed
| fuel + 1, text =>
    match text with
    | ']' :: after => .ok ([], after)
    | _ =>
        (readValue fuel text).bind fun (value, rest) =>
          (expect (gaps? rest)).bind fun bare =>
            match bare with
            | ']' :: after => .ok ([value], after)
            | ',' :: more =>
                (expect (gaps? more)).bind fun next =>
                  (readItems fuel next).map
                    fun (values, r) => (value :: values, r)
            | _ => .error .malformed

/-
  The fields of a table in braces, up to and past its brace,
  with those read before and the keys that are closed.
-/
def readFields : (fuel : Nat) → List Key → Fields → List Char →
    Reading Fields
| 0, _, _, _ => .error .malformed
| fuel + 1, closed, before, text =>
    (expect (key? text)).bind fun (key, afterKey) =>
      (expect (mark? '=' afterKey)).bind fun rest =>
        (readValue fuel (skipBlanks rest)).bind
          fun (value, after) =>
            if isWithin closed key then .error (.immutable key)
            else
              (insertAt false key value .duplicate before).bind
                fun fields =>
                  match skipBlanks after with
                  | '}' :: last => .ok (fields, last)
                  | ',' :: more =>
                      let closed :=
                        if isCompound value then key :: closed
                        else closed
                      readFields fuel closed fields
                        (skipBlanks more)
                  | _ => .error .malformed

end

end Toml

end SymbolAtlas

------------------------------------------------------------
-- Statements
------------------------------------------------------------

namespace SymbolAtlas

namespace Toml

/-
  What the statements so far have made: the fields, the head
  in force, the keys that are closed, those that no head may
  open, and those that none may after the next head.
-/
structure Draft where
  fields : Fields := []
  head : Key := []
  closed : List Key := []
  opened : List Key := []
  pending : List Key := []
deriving Inhabited

namespace Draft

/- The head of a table. -/
def openTable (d : Draft) (key : Key) : Except Complaint Draft :=
  if d.opened.contains key || isWithin d.closed key then
    .error (.declaredTwice key)
  else
    (changeAt true key .ok d.fields).map fun fields =>
      { d with
        fields := fields, head := key, opened := key :: d.opened }

/- Add an empty table to a list of tables. -/
def addTable (name : String) : Change := fun fields =>
  match Keyed.lookup name fields with
  | none => .ok (fields ++ [(name, .list [.record []])])
  | some (.list items) =>
      .ok (setField fields name (.list (items ++ [.record []])))
  | some _ => .error .malformed

/- The head of one more table of a list. -/
def openItem (d : Draft) (key : Key) : Except Complaint Draft :=
  if isWithin d.closed key then .error (.immutable key)
  else
    let outside (k : Key) : Bool := !key.isPrefixOf k
    match key.getLast? with
    | none => .error .malformed
    | some name =>
        (changeAt true key.dropLast (addTable name) d.fields).map
          fun fields =>
            { d with
              fields := fields
              head := key
              closed := d.closed.filter outside
              opened := key :: d.opened.filter outside }

/- The tables that a key opens on its way, under the head. -/
def wayTo (d : Draft) (key : Key) : List Key :=
  (List.range (key.length - 1)).map fun i =>
    d.head ++ key.take (i + 1)

/- A key with its value. -/
def assign (d : Draft) (key : Key) (value : Datum) :
    Except Complaint Draft :=
  let way := d.wayTo key
  let place := d.head ++ key
  match way.find? d.opened.contains with
  | some taken => .error (.redefined taken)
  | none =>
      if isWithin d.closed place.dropLast then
        .error (.immutable place.dropLast)
      else
        (insertAt true place value (fun _ => .malformed)
          d.fields).map fun fields =>
            { d with
              fields := fields
              pending := way ++ d.pending
              closed :=
                if isCompound value then place :: d.closed
                else d.closed }

/- What was opened on the way to keys is now closed to heads. -/
def settle (d : Draft) : Draft :=
  { d with opened := d.pending ++ d.opened, pending := [] }

end Draft

/- The head of a table or of an item, behind its brackets. -/
def readHead (d : Draft) (text : List Char) : Reading Draft :=
  let settled := d.settle
  match text with
  | '[' :: rest =>
      (expect (key? (skipBlanks rest))).bind fun (key, after) =>
        (settled.openItem key).bind fun draft =>
          match after with
          | ']' :: ']' :: last => .ok (draft, last)
          | _ => .error .itemNotClosed
  | rest =>
      (expect (key? (skipBlanks rest))).bind fun (key, after) =>
        (settled.openTable key).bind fun draft =>
          match after with
          | ']' :: last => .ok (draft, last)
          | _ => .error .headNotClosed

/- A key with its value. -/
def readAssignment (d : Draft) (text : List Char) :
    Reading Draft :=
  (expect (key? text)).bind fun (key, afterKey) =>
    (expect (mark? '=' afterKey)).bind fun rest =>
      (readValue (text.length + 1) (skipBlanks rest)).bind
        fun (value, after) => (d.assign key value).map (·, after)

/- The statement at the front of a line, if there is one. -/
def readStatement (d : Draft) (text : List Char) :
    Reading Draft :=
  match text with
  | [] => .ok (d, [])
  | '\n' :: _ => .ok (d, text)
  | '#' :: _ => .ok (d, text)
  | '[' :: rest => readHead d rest
  | c :: _ =>
      if beginsKey c then readAssignment d text
      else .error .malformed

/- All statements of a text. -/
def readStatements : (fuel : Nat) → Draft → List Char →
    Except Complaint Draft
| 0, _, _ => .error .malformed
| fuel + 1, d, text =>
    (readStatement d (skipBlanks text)).bind fun (draft, rest) =>
      (expect (comment? (skipBlanks rest))).bind fun after =>
        match after with
        | [] => .ok draft
        | '\n' :: next => readStatements fuel draft next
        | _ => .error .malformed

/- Line ends of all kinds are the same. -/
def plainLines : List Char → List Char
| '\r' :: '\n' :: rest => '\n' :: plainLines rest
| '\r' :: rest => '\n' :: plainLines rest
| c :: rest => c :: plainLines rest
| [] => []

/- The table that a text describes. -/
def parse (text : String) : Except Complaint Datum :=
  let chars := plainLines text.toList
  (readStatements (chars.length + 1) {} chars).map
    fun draft => .record draft.fields

end Toml

end SymbolAtlas
