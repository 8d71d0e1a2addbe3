import DocumentApi.Representation.Basic
import DocumentApi.Representation.MediaRange

/-!
The representations of a resource, no two of one content type, and the choice of one for a request.
-/

set_option autoImplicit false

namespace DocumentApi

namespace Representation

def key (r : Representation) : String := Text.lowered r.contentType

theorem key_eq_iff {r : Representation} {cs : List Char} :
    r.key = String.ofList (Text.lower cs) ↔ Text.lower r.contentType.toList = Text.lower cs := by
  rw [key, Text.lowered, ← String.toList_inj, String.toList_ofList, String.toList_ofList]

end Representation

structure Registry where
  items : List Representation
  distinct : (items.map Representation.key).Nodup

namespace Registry

def firstRepeat? (seen : List String) : List Representation → Option Representation
  | [] => none
  | r :: rest => if r.key ∈ seen then some r else firstRepeat? (r.key :: seen) rest

def duplicate (contentType : String) : Problem :=
  Problem.titled .configuration "Duplicate representation"
    ("The content type \"" ++ contentType ++ "\" is registered twice")

def ofList (items : List Representation) : Answer Registry :=
  if h : (items.map Representation.key).Nodup then .ok ⟨items, h⟩
  else .error (.problem (duplicate (((firstRepeat? [] items).map (·.contentType)).getD "")))

def capable (g : Registry) (c : Capability) : List Representation :=
  g.items.filter (·.supports c)

def contentTypes (g : Registry) (c : Option Capability) : List String :=
  (g.items.filter fun r => c.all r.supports).map (·.contentType)

/-- What serves a media range: anything for a wildcard, else the content type itself. -/
def serving? (candidates : List Representation) (range : MediaRange) : Option Representation :=
  if range.isWildcard then candidates.head?
  else candidates.find? fun r => r.key = range.mediaType

/-- The text of a header that makes demands. -/
def demand? : Value → Option String
  | .string s => if (Text.strip s.toList).isEmpty then none else some s
  | _ => none

def noOutput : Problem := Problem.titled .configuration "No output" "No output format provided"

def unknownHeader (header : String) : Problem :=
  Problem.of .negotiation
    ("The provided Accept header (\"" ++ header ++ "\") is not in the list of possible response")

/-- The representation for a capability and a header, and what is logged of the choice. -/
def negotiate (g : Registry) (c : Capability) (header : Value) :
    Answer Representation × List LogEntry :=
  match g.capable c with
  | [] => (.error (.problem noOutput), [⟨.error, "No representation supports " ++ c.name⟩])
  | first :: others =>
    match demand? header with
    | none => (.ok first, [])
    | some text =>
      match (MediaRange.ofHeader text).findSome? (serving? (first :: others)) with
      | some r => (.ok r, [])
      | none =>
        (.error (.problem (unknownHeader text)),
          [⟨.debug, "Unable to negotiate " ++ Text.quoted text ++ " for " ++ c.name⟩])

theorem mem_of_serving? {candidates : List Representation} {range : MediaRange} {r : Representation}
    (h : serving? candidates range = some r) : r ∈ candidates := by
  unfold serving? at h
  split at h
  · exact List.mem_of_head? h
  · exact List.mem_of_find?_eq_some h

/-- A chosen representation is one of those that can serve the capability. -/
theorem mem_capable_of_negotiate {g : Registry} {c : Capability} {header : Value} {r : Representation}
    (h : (g.negotiate c header).1 = .ok r) : r ∈ g.capable c := by
  unfold negotiate at h
  split at h
  · cases h
  · rename_i first others hcapable
    rw [hcapable]
    split at h
    · cases h
      exact List.mem_cons_self
    · split at h
      · rename_i found hfound
        cases h
        obtain ⟨range, -, hserving⟩ := List.exists_of_findSome?_eq_some hfound
        exact mem_of_serving? hserving
      · cases h

theorem mem_of_negotiate {g : Registry} {c : Capability} {header : Value} {r : Representation}
    (h : (g.negotiate c header).1 = .ok r) : r ∈ g.items :=
  (List.mem_filter.mp (mem_capable_of_negotiate h)).1

/-- The representation of a content type, whose parameters do not count. -/
def find? (g : Registry) (contentType : String) : Option Representation :=
  let wanted := Text.lower (Text.strip (Text.cut ';' contentType.toList).1)
  g.items.find? fun r => r.key = String.ofList wanted

def noRenderer : Problem :=
  Problem.titled .noRepresentation "No content renderer found"
    "Unable to find a renderer to display the result"

def noParser : Problem :=
  Problem.titled .noRepresentation "No content parser found"
    "Unable to find a parser to read the request"

def function (g : Registry) (c : Capability) (contentType : String) (missing : Problem) :
    Answer (c.Input → Answer Value) :=
  match (g.find? contentType).bind (·.function? c) with
  | some f => .ok f
  | none => .error (.problem missing)

def renderer (g : Registry) (c : Capability) (contentType : String) :
    Answer (c.Input → Answer Value) :=
  g.function c contentType noRenderer

def parser (g : Registry) (c : Capability) (contentType : String) :
    Answer (c.Input → Answer Value) :=
  g.function c contentType noParser

theorem find?_key {items : List Representation} (hd : (items.map Representation.key).Nodup)
    {r : Representation} (hr : r ∈ items) :
    items.find? (fun other => decide (other.key = r.key)) = some r := by
  induction items with
  | nil => cases hr
  | cons first rest ih =>
    rw [List.map_cons, List.nodup_cons] at hd
    rcases List.mem_cons.mp hr with rfl | hrest
    · simp
    · have hne : first.key ≠ r.key := fun he => hd.1 (he ▸ List.mem_map_of_mem hrest)
      simpa [hne] using ih hd.2 hrest

theorem function_of_find? {g : Registry} {c : Capability} {r : Representation}
    {contentType : String} {f : c.Input → Answer Value} (h : g.find? contentType = some r)
    (hf : r.function? c = some f) (missing : Problem) :
    g.function c contentType missing = .ok f := by
  rw [function, h, Option.bind_some, hf]

/-- What a representation offers is found by its content type, if that has no parameters. -/
theorem function_of_mem {g : Registry} {c : Capability} {r : Representation}
    {f : c.Input → Answer Value} (hr : r ∈ g.items)
    (hplain : String.ofList (Text.lower (Text.strip (Text.cut ';' r.contentType.toList).1)) = r.key)
    (hf : r.function? c = some f) (missing : Problem) :
    g.function c r.contentType missing = .ok f := by
  have hfind : g.find? r.contentType = some r := by
    rw [find?]
    rw [hplain]
    exact find?_key g.distinct hr
  exact function_of_find? hfind hf missing

end Registry

end DocumentApi
