import GuestBridge.Bridge.GuestFunction
import GuestBridge.Proofs.Names.Search

/-!
# Issued names never clash

Every function brings two names with it, its own and that of its helper. Whatever was issued or
reserved before, a name that is issued differs from all those names in both of its forms.
-/

namespace GuestBridge

namespace Names

/-- What is asked of a registry. -/
inductive Call where
  | unique (base : String)
  | reserve (name : String)
  deriving Repr

/-- Whether a name is to be issued. -/
def Call.isUnique : Call → Bool
  | .unique _ => true
  | .reserve _ => false

/-- A call, with the name that was issued or reserved. -/
structure Grant where
  call : Call
  name : String
  deriving Repr

/-- The name that a call comes to, and the registry afterwards. -/
def grant (names : Names) : Call → String × Names
  | .unique base => names.unique base
  | .reserve name => (name, names.reserve name)

/-- Calls, one after the other, with what they come to. -/
def grants (names : Names) : List Call → List Grant
  | [] => []
  | call :: calls => ⟨call, (names.grant call).1⟩ :: (names.grant call).2.grants calls

/-- Neither of two names nor the name of its helper is the other name or that of its helper. -/
def Apart (a b : String) : Prop :=
  [a, Definition.mapName a].Disjoint [b, Definition.mapName b]

/-- A registry knows a name and the name of its helper. -/
def Knows (names : Names) (name : String) : Prop :=
  name ∈ names.issued ∧ Definition.mapName name ∈ names.issued

variable {names : Names} {name other : String}

/-- A name that is free is apart from every name that is known. -/
theorem Knows.apart (h : names.Knows name) (hfree : names.isFree other) : Apart name other := by
  obtain ⟨hother, hhelper⟩ := isFree_iff.1 hfree
  intro x hx hx'
  have hknown : x ∈ names.issued := by
    rcases List.mem_pair.1 hx with rfl | rfl
    · exact h.1
    · exact h.2
  rcases List.mem_pair.1 hx' with rfl | rfl
  · exact hother hknown
  · exact hhelper hknown

/-- A name that was taken is known, as are those that were known before. -/
theorem knows_take (names : Names) (name : String) : (names.take name).Knows name := by
  simp [Knows, take]

/-- A name stays known when another one is taken. -/
theorem Knows.take (h : names.Knows name) (other : String) : (names.take other).Knows name :=
  ⟨List.mem_cons_of_mem _ (List.mem_cons_of_mem _ h.1),
    List.mem_cons_of_mem _ (List.mem_cons_of_mem _ h.2)⟩

/-- A name stays known when another one is issued. -/
theorem Knows.unique (h : names.Knows name) (base : String) :
    (names.unique base).2.Knows name := by
  unfold Names.unique
  exact Knows.take h _

/-- What a call comes to is known afterwards. -/
theorem knows_grant (names : Names) (call : Call) :
    (names.grant call).2.Knows (names.grant call).1 := by
  cases call with
  | unique base => exact knows_take _ _
  | reserve name => exact knows_take _ _

/-- A name stays known whatever is called for. -/
theorem Knows.grant (h : names.Knows name) (call : Call) : (names.grant call).2.Knows name := by
  cases call with
  | unique base => exact h.unique base
  | reserve name => exact h.take name

/-- A name that is issued is apart from every name that is known. -/
theorem Knows.apart_grant (h : names.Knows name) {call : Call} (hcall : call.isUnique) :
    Apart name (names.grant call).1 := by
  cases call with
  | unique base => exact h.apart (isFree_unique names base)
  | reserve name => cases hcall

/-- All names that are issued later are apart from a name that is known. -/
theorem Knows.apart_grants (h : names.Knows name) (calls : List Call) :
    ∀ g ∈ names.grants calls, g.call.isUnique → Apart name g.name := by
  induction calls generalizing names with
  | nil => simp [grants]
  | cons call calls ih =>
    rw [grants, List.forall_mem_cons]
    exact ⟨h.apart_grant, ih (h.grant call)⟩

/-- A name that is issued is apart from all that were issued or reserved before. -/
theorem pairwise_grants (names : Names) (calls : List Call) :
    (names.grants calls).Pairwise fun earlier later ↦
      later.call.isUnique → Apart earlier.name later.name := by
  induction calls generalizing names with
  | nil => exact List.Pairwise.nil
  | cons call calls ih =>
    rw [grants, List.pairwise_cons]
    exact ⟨(knows_grant names call).apart_grants calls, ih _⟩

/-- Whatever is asked of a registry from the beginning: a name that is issued clashes with none
that was issued or reserved before, and so no two issued names clash. -/
theorem issued_apart (calls : List Call) :
    let grants := empty.grants calls
    grants.Pairwise (fun earlier later ↦ later.call.isUnique → Apart earlier.name later.name) ∧
      ((grants.filter (·.call.isUnique)).map (·.name)).Pairwise Apart := by
  intro grants
  have hall : grants.Pairwise fun earlier later ↦
    later.call.isUnique → Apart earlier.name later.name := pairwise_grants empty calls
  refine ⟨hall, ?_⟩
  rw [List.pairwise_map, List.pairwise_filter]
  exact hall.imp fun h _ hlater ↦ h hlater

end Names

/-! ### Functions with issued names -/

namespace GuestFunction

variable {names : Names} {name : String}

/-- Functions that are made one after the other, with what they are made from. -/
def makeAll (names : Names) : List FunctionParts → List (FunctionParts × GuestFunction)
  | [] => []
  | parts :: rest => (parts, (ofParts names parts).1) :: makeAll (ofParts names parts).2 rest

/-- The name of a function is issued for it if none is asked for and its code reveals none. -/
def IsIssued (parts : FunctionParts) : Prop :=
  parts.name = none ∧ (Definition.definedName? parts.source).join = none

/-- The name of a function that is made is known afterwards. -/
theorem knows_ofParts (names : Names) (parts : FunctionParts) :
    (ofParts names parts).2.Knows (ofParts names parts).1.guestName :=
  Names.knows_take _ _

/-- A name stays known when a function is made. -/
theorem knows_ofParts_of_knows (h : names.Knows name) (parts : FunctionParts) :
    (ofParts names parts).2.Knows name := by
  have hrequested : (requestedName names parts).2.Knows name := by
    unfold requestedName
    split
    · exact h
    · exact h.unique parts.hostName
  exact hrequested.take _

/-- A function whose name is issued for it has this name. -/
theorem guestName_ofParts {parts : FunctionParts} (h : IsIssued parts) (names : Names) :
    (ofParts names parts).1.guestName = (names.unique parts.hostName).1 := by
  obtain ⟨hname, hsource⟩ := h
  simp only [ofParts, requestedName, hname, Definition.build]
  cases hdefined : Definition.definedName? parts.source with
  | none => rfl
  | some defined =>
    rw [hdefined, Option.join_some] at hsource
    rw [hsource]
    rfl

/-- All functions whose names are issued for them are apart from a name that is known. -/
theorem apart_makeAll (h : names.Knows name) (parts : List FunctionParts) :
    ∀ made ∈ makeAll names parts, IsIssued made.1 → Names.Apart name made.2.guestName := by
  induction parts generalizing names with
  | nil => simp [makeAll]
  | cons parts rest ih =>
    rw [makeAll, List.forall_mem_cons]
    refine ⟨fun hissued ↦ ?_, ih (knows_ofParts_of_knows h parts)⟩
    rw [guestName_ofParts hissued]
    exact h.apart (Names.isFree_unique names _)

/-- A function whose name is issued for it clashes with none that was made before, whatever
names those were given or define themselves. -/
theorem pairwise_makeAll (names : Names) (parts : List FunctionParts) :
    (makeAll names parts).Pairwise fun earlier later ↦
      IsIssued later.1 → Names.Apart earlier.2.guestName later.2.guestName := by
  induction parts generalizing names with
  | nil => exact List.Pairwise.nil
  | cons parts rest ih =>
    rw [makeAll, List.pairwise_cons]
    exact ⟨apart_makeAll (knows_ofParts names parts) rest, ih _⟩

end GuestFunction

end GuestBridge
