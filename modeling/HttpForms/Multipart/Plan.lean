import HttpForms.Multipart.Visitor

/-!
# Plans

A plan says what is done with each section of a body: a list of actions for the first section, one
for the second, and so on. The last list serves all further sections. Without any list every section
is read to its end. A section with an empty list is left unread, and it is the next event that passes
over it.
-/

namespace HttpForms.Multipart

/-- Something that is done with a section. -/
inductive Action
  | all
  | text
  /-- Reads once, at most so many octets. -/
  | portion (room : Nat)
  | toEnd
  /-- Passes over the rest. The section is given up, so nothing follows. -/
  | skip
  /-- Reads the section as a body of its own, by a plan of its own. -/
  | nested (plan : List (List Action))

/-- The actions for each section in turn. -/
abbrev Plan := List (List Action)

/-- How often a body is seen to be over before its record ends: once more than it takes, so that the
record shows that it stays over. -/
def timesOver : Nat := 2

/-- The visitors of a list in turn; without any, every section is read to its end. -/
def Visitors.ofList (mode : Mode) : List Visitor → Visitors
  | [] => ⟨.all mode, []⟩
  | v :: later => ⟨v, later⟩

namespace Action

/-- Whether the action gives the section up. -/
def isLast : Action → Bool
  | .skip => true
  | _ => false

mutual

/-- The visitor that does the action. -/
def visitor (mode : Mode) : Action → Visitor
  | .all => .all mode
  | .text => .text mode
  | .portion room => .portion mode room
  | .toEnd => .toEnd mode
  | .skip => .skip mode
  | .nested plan => .nested mode (.ofList mode (visitors mode plan)) timesOver

/-- The visitor that does one action after the other, up to the one that gives the section up. -/
def sequence (mode : Mode) : List Action → Visitor
  | [] => .ignore
  | action :: rest =>
    if action.isLast then visitor mode action
    else (visitor mode action).followedBy (sequence mode rest)

/-- The visitor for each section in turn. -/
def visitors (mode : Mode) : List (List Action) → List Visitor
  | [] => []
  | actions :: plan => sequence mode actions :: visitors mode plan

end

end Action

/-- The record of a body that is read by a plan, and the reader behind it. -/
def Plan.run {σ : Type} [ByteSource σ] (plan : Plan) (mode : Mode) (r : Reader σ) :
    List Entry × Reader σ :=
  r.transcript mode (.ofList mode (Action.visitors mode plan)) timesOver

end HttpForms.Multipart
