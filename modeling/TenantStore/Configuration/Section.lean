import TenantStore.Json.Basic

/-!
# Sections built from named lines

A settings text is a sequence of headers, which name a section, and of values with dotted names
below the last header.  A section stands for an object and is declared once: a header cannot name a
section that another header or a dotted name has made, and a dotted name cannot enter a section that
a header has declared.  A section that is only on the way to another one can be declared later.
-/

namespace TenantStore

/-- How a section came to be. -/
inductive SectionOrigin where
  | declared
  | implied
  | dotted
  deriving DecidableEq, Repr

/-- What a name stands for. -/
inductive SectionEntry where
  | value (document : Json)
  | inner (origin : SectionOrigin) (members : List (String × SectionEntry))

/-- The members of a section in the order in which they are written. -/
abbrev SectionMembers := List (String × SectionEntry)

namespace SectionMembers

/-- What the name stands for, if it is used. -/
def find? (members : SectionMembers) (name : String) : Option SectionEntry :=
  (List.find? (fun member => member.1 == name) members).map Prod.snd

/-- Let the name stand for the entry, at its old place if it is used. -/
def set (members : SectionMembers) (name : String) (entry : SectionEntry) : SectionMembers :=
  if (members.find? name).isSome then
    members.map fun member => if member.1 == name then (name, entry) else member
  else members ++ [(name, entry)]

/-- Declare the section of that path, for a header. -/
def declare? (members : SectionMembers) : (path : List String) → Option SectionMembers
  | [] => some members
  | [name] =>
    match members.find? name with
    | none => some (members.set name (.inner .declared []))
    | some (.inner .implied held) => some (members.set name (.inner .declared held))
    | some _ => none
  | name :: next :: rest =>
    match members.find? name with
    | none => (declare? [] (next :: rest)).map fun held => members.set name (.inner .implied held)
    | some (.inner origin held) =>
      (declare? held (next :: rest)).map fun held => members.set name (.inner origin held)
    | some (.value _) => none

/-- Give a value to a dotted name.  The sections on its way are not declared ones, and the last of
them was made by a dotted name. -/
def define? (document : Json) (members : SectionMembers) : (path : List String) →
    Option SectionMembers
  | [] => none
  | [name] =>
    match members.find? name with
    | none => some (members.set name (.value document))
    | some _ => none
  | name :: next :: rest =>
    match members.find? name with
    | none =>
      (define? document [] (next :: rest)).map fun held => members.set name (.inner .dotted held)
    | some (.inner .dotted held) =>
      (define? document held (next :: rest)).map fun held => members.set name (.inner .dotted held)
    | some (.inner .implied held) =>
      if rest.isEmpty then none
      else
        (define? document held (next :: rest)).map fun held =>
          members.set name (.inner .implied held)
    | some _ => none

/-- Change the members of the section that a path leads to, if it leads through sections only. -/
def within? (change : SectionMembers → Option SectionMembers) (members : SectionMembers) :
    (path : List String) → Option SectionMembers
  | [] => change members
  | name :: rest =>
    match members.find? name with
    | some (.inner origin held) =>
      (within? change held rest).map fun held => members.set name (.inner origin held)
    | _ => none

end SectionMembers

mutual

/-- The document that an entry stands for. -/
def SectionEntry.toJson : SectionEntry → Json
  | .value document => document
  | .inner _ members => .object (SectionEntry.namedJson members)

/-- The members with the documents that they stand for. -/
def SectionEntry.namedJson : List (String × SectionEntry) → List (String × Json)
  | [] => []
  | (name, entry) :: rest => (name, entry.toJson) :: SectionEntry.namedJson rest

end

end TenantStore
