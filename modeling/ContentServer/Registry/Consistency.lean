import ContentServer.Foundation.Runs
import ContentServer.Registry.Slots

/-!
# Consistency of the registry

The lock-protected operations in any order.  `SetName` and `SetUserId` are
called as `HandleNick` calls them: a name is set while the session is still
unnamed, and a user id is set after a name was, to the id that the database
keeps for this name.  `Destroy` may come at any point.

The history fields record the ids that `Create` gave out and the calls of
`SetName` and `SetUserId` that had an effect.
-/

namespace ContentServer
namespace Registry

open Foundation Protocol Sessions SessionManager

/-- The manager and what was done to it. -/
structure Directory where
  manager : SessionManager
  created : List Nat
  named : List (Nat × List UInt8)
  bound : List (Nat × Nat)

namespace Directory

inductive Event where
  | create (socket : Nat)
  | setName (id : Nat) (name : List UInt8)
  | setUserId (id userId : Nat)
  | destroy (id : Nat)

def start (shards : Nat) : Directory where
  manager := .initShards shards
  created := []
  named := []
  bound := []

/-- A session with this id is registered. -/
def Live (d : Directory) (id : Nat) : Prop :=
  exists slot, d.manager.byId.lookup id = some slot

def step (userIdOf : List UInt8 -> Nat) (d : Directory) : Event -> Option Directory
  | .create socket =>
      match d.manager.create socket with
      | none => some d
      | some (_, manager) =>
          some { d with
            manager := manager
            created := d.manager.nextId :: d.created }
  | .setName id name =>
      if name = [] ∨ d.manager.isNamed id = true then none
      else
        let (done, manager) := d.manager.setName id name
        some { d with
          manager := manager
          named := if done then (id, name) :: d.named else d.named }
  | .setUserId id userId =>
      if exists login, login ∈ d.named ∧ login.1 = id ∧
          userIdOf login.2 = userId then
        some { d with
          manager := d.manager.setUserId id userId
          bound :=
            if id ∈ d.manager.byId then (id, userId) :: d.bound else d.bound }
      else none
  | .destroy id =>
      match d.manager.byId.lookup id with
      | none => none
      | some slot => some { d with manager := d.manager.destroy slot }

/-- What an enabled event does. -/
theorem step_cases {userIdOf : List UInt8 -> Nat} {d e : Directory}
    {event : Event} (h : d.step userIdOf event = some e) :
    (exists socket, event = .create socket ∧
      ((d.manager.create socket = none ∧ e = d) ∨
        exists slot m, d.manager.create socket = some (slot, m) ∧
          e = { d with manager := m, created := d.manager.nextId :: d.created })) ∨
    (exists id name, event = .setName id name ∧ name ≠ [] ∧
      d.manager.isNamed id = false ∧
      (e = d ∨ exists slot, d.manager.byName.lookup name = none ∧
        d.manager.byId.lookup id = some slot ∧
        e = { d with
          manager := { d.manager.put slot ((d.manager.session slot).setName name)
            with byName := d.manager.byName.insert name id }
          named := (id, name) :: d.named })) ∨
    (exists id name, event = .setUserId id (userIdOf name) ∧
      (id, name) ∈ d.named ∧
      (e = d ∨ exists slot, d.manager.byId.lookup id = some slot ∧
        e = { d with
          manager := { d.manager.put slot
              ((d.manager.session slot).setUserId (userIdOf name))
            with byUserId := d.manager.byUserId.insert (userIdOf name) id }
          bound := (id, userIdOf name) :: d.bound })) ∨
    (exists id slot, event = .destroy id ∧
      d.manager.byId.lookup id = some slot ∧
      e = { d with manager := d.manager.destroy slot }) := by
  cases event with
  | create socket =>
      left
      refine ⟨socket, rfl, ?_⟩
      simp only [step] at h
      cases hcreate : d.manager.create socket with
      | none =>
          rw [hcreate] at h
          cases h
          exact Or.inl ⟨rfl, rfl⟩
      | some made =>
          rcases made with ⟨slot, m⟩
          rw [hcreate] at h
          cases h
          exact Or.inr ⟨slot, m, rfl, rfl⟩
  | setName id name =>
      right; left
      simp only [step] at h
      split at h
      · cases h
      · rename_i hguard
        rw [not_or] at hguard
        refine ⟨id, name, rfl, hguard.left, by simpa using hguard.right, ?_⟩
        rcases setName_cases d.manager id name with
          ⟨heq, _⟩ | ⟨slot, hfree, hlive, heq⟩
        · rw [heq] at h
          cases h
          exact Or.inl rfl
        · rw [heq] at h
          cases h
          exact Or.inr ⟨slot, hfree, hlive, rfl⟩
  | setUserId id userId =>
      right; right; left
      simp only [step] at h
      split at h
      · rename_i hguard
        rcases hguard with ⟨⟨owner, name⟩, hmem, hid, huser⟩
        replace hid : owner = id := hid
        replace huser : userIdOf name = userId := huser
        subst hid huser
        refine ⟨owner, name, rfl, hmem, ?_⟩
        rcases setUserId_cases d.manager owner (userIdOf name) with
          ⟨heq, habsent⟩ | ⟨slot, hlive, hpresent, heq⟩
        · rw [heq, if_neg habsent] at h
          cases h
          exact Or.inl rfl
        · rw [heq, if_pos hpresent] at h
          cases h
          exact Or.inr ⟨slot, hlive, rfl⟩
      · cases h
  | destroy id =>
      right; right; right
      simp only [step] at h
      split at h
      · cases h
      · rename_i slot hlive
        cases h
        exact ⟨id, slot, rfl, hlive, rfl⟩

end Directory

/-!
# Ids
-/

/-- Ids are given out one after the other, and live ones were given out. -/
structure Issued (d : Directory) : Prop where
  slots : Occupied d.manager
  count : d.manager.nextId = d.created.length + 1
  ids : d.created.Nodup
  old : forall id, id ∈ d.created -> id < d.manager.nextId
  listed : forall id, d.Live id -> id ∈ d.created

namespace Issued

variable {d e : Directory}

theorem start (shards : Nat) : Issued (.start shards) where
  slots := Occupied.initShards shards
  count := rfl
  ids := List.nodup_nil
  old := fun id hmem => by cases hmem
  listed := by
    intro id hlive
    rcases hlive with ⟨slot, hslot⟩
    cases hslot

theorem create (h : Issued d) {socket : Nat} {slot : Slot} {m : SessionManager}
    (hc : Created d.manager socket slot m) :
    Issued { d with manager := m, created := d.manager.nextId :: d.created } := by
  constructor
  · exact h.slots.create hc
  · show m.nextId = _
    rw [hc.nextId, h.count, List.length_cons]
  · rw [List.nodup_cons]
    exact ⟨fun hmem => Nat.lt_irrefl _ (h.old _ hmem), h.ids⟩
  · intro id hmem
    rw [hc.nextId]
    rcases List.mem_cons.mp hmem with hsame | hmem
    · rw [hsame]
      exact Nat.lt_succ_self _
    · exact Nat.lt_succ_of_lt (h.old id hmem)
  · intro id hnow
    by_cases hid : id = d.manager.nextId
    · rw [hid]
      exact List.mem_cons_self
    · rcases hnow with ⟨found, hfound⟩
      rw [hc.byId, AList.lookup_insert_ne hid] at hfound
      exact List.mem_cons_of_mem _ (h.listed id ⟨found, hfound⟩)

/-- Operations that leave ids and slots alone. -/
theorem congr (h : Issued d) (hslots : Occupied e.manager)
    (hbyId : e.manager.byId = d.manager.byId)
    (hnextId : e.manager.nextId = d.manager.nextId)
    (hcreated : e.created = d.created) : Issued e := by
  constructor
  · exact hslots
  · rw [hnextId, hcreated]
    exact h.count
  · rw [hcreated]
    exact h.ids
  · rw [hcreated, hnextId]
    exact h.old
  · intro id hlive
    rw [hcreated]
    rcases hlive with ⟨slot, hslot⟩
    rw [hbyId] at hslot
    exact h.listed id ⟨slot, hslot⟩

/-- Another owner in the slot, other secondary indexes and another history. -/
theorem rekey (h : Issued d) (slot : Slot) (s : Session)
    (hid : s.id = (d.manager.session slot).id)
    (hindex : s.index = (d.manager.session slot).index)
    {byName : Table (List UInt8) Nat} {byUserId : Table Nat Nat}
    {named : List (Nat × List UInt8)} {bound : List (Nat × Nat)} :
    Issued { d with
      manager := { d.manager.put slot s with
        byName := byName, byUserId := byUserId }
      named := named
      bound := bound } := by
  have hslots : Occupied (d.manager.put slot s) := h.slots.put slot hid hindex
  exact h.congr (hslots.congr rfl rfl rfl (fun _ => rfl) (fun _ => rfl)) rfl
    rfl rfl

theorem live_of_destroy (h : Issued d) {id other : Nat} {slot found : Slot}
    (hlive : d.manager.byId.lookup id = some slot)
    (hfound : (d.manager.destroy slot).byId.lookup other = some found) :
    other ≠ id ∧ d.manager.byId.lookup other = some found := by
  replace hfound :
      (d.manager.byId.erase (d.manager.session slot).id).lookup other =
        some found := hfound
  rw [(h.slots.owner id slot hlive).left] at hfound
  by_cases hother : other = id
  · rw [hother, AList.lookup_erase] at hfound
    cases hfound
  · rw [AList.lookup_erase_ne hother] at hfound
    exact ⟨hother, hfound⟩

theorem destroy (h : Issued d) {id : Nat} {slot : Slot}
    (hlive : d.manager.byId.lookup id = some slot) :
    Issued { d with manager := d.manager.destroy slot } := by
  constructor
  · exact h.slots.destroy hlive
  · exact h.count
  · exact h.ids
  · exact h.old
  · intro other hnow
    rcases hnow with ⟨place, hplace⟩
    exact h.listed other ⟨place, (h.live_of_destroy hlive hplace).right⟩

end Issued

theorem issued_preserved (userIdOf : List UInt8 -> Nat) :
    Preserved (Directory.step userIdOf) Issued := by
  intro d event e h hstep
  rcases Directory.step_cases hstep with
    ⟨socket, rfl, ⟨_, rfl⟩ | ⟨slot, m, hcreate, rfl⟩⟩ |
    ⟨id, name, rfl, _, _, rfl | ⟨slot, _, hlive, rfl⟩⟩ |
    ⟨id, name, rfl, _, rfl | ⟨slot, hlive, rfl⟩⟩ |
    ⟨id, slot, rfl, hlive, rfl⟩
  · exact h
  · exact h.create (create_created hcreate)
  · exact h
  · exact h.rekey slot ((d.manager.session slot).setName name) rfl rfl
  · exact h
  · exact h.rekey slot ((d.manager.session slot).setUserId (userIdOf name))
      rfl rfl
  · exact h.destroy hlive

/-!
# The invariant
-/

/-- Names and user ids are indexed, and the history explains who has them. -/
structure Consistent (userIdOf : List UInt8 -> Nat) (d : Directory) : Prop
    extends Issued d where
  names : Indexes d.manager.byName d.manager.nameOf
  users : Indexes d.manager.byUserId d.manager.userOf
  assigned : forall id u, d.manager.userOf id = some u ->
    exists name, d.manager.nameOf id = some name ∧ userIdOf name = u
  named : forall id name, (id, name) ∈ d.named ->
    id < d.manager.nextId ∧ (d.Live id -> d.manager.nameOf id = some name)
  nameLogged : forall id name, d.manager.nameOf id = some name ->
    (id, name) ∈ d.named
  bound : forall id u, (id, u) ∈ d.bound ->
    id < d.manager.nextId ∧ (d.Live id -> d.manager.userOf id = some u)
  userLogged : forall id u, d.manager.userOf id = some u -> (id, u) ∈ d.bound

namespace Consistent

variable {userIdOf : List UInt8 -> Nat} {d e : Directory}

theorem recordedNames (h : Consistent userIdOf d) :
    Recorded (· < d.manager.nextId) d.Live d.named d.manager.nameOf :=
  ⟨h.named, h.nameLogged⟩

theorem recordedUsers (h : Consistent userIdOf d) :
    Recorded (· < d.manager.nextId) d.Live d.bound d.manager.userOf :=
  ⟨h.bound, h.userLogged⟩

theorem of_recorded (hissued : Issued d)
    (hnames : Indexes d.manager.byName d.manager.nameOf)
    (husers : Indexes d.manager.byUserId d.manager.userOf)
    (hassigned : forall id u, d.manager.userOf id = some u ->
      exists name, d.manager.nameOf id = some name ∧ userIdOf name = u)
    (hnamed : Recorded (· < d.manager.nextId) d.Live d.named d.manager.nameOf)
    (hbound : Recorded (· < d.manager.nextId) d.Live d.bound d.manager.userOf) :
    Consistent userIdOf d where
  toIssued := hissued
  names := hnames
  users := husers
  assigned := hassigned
  named := hnamed.entries
  nameLogged := hnamed.carried
  bound := hbound.entries
  userLogged := hbound.carried

theorem start (shards : Nat) : Consistent userIdOf (.start shards) := by
  have hnone : forall id, (Directory.start shards).manager.byId.lookup id = none :=
    fun _ => rfl
  have hnames : forall id, (Directory.start shards).manager.nameOf id = none :=
    fun id => carried_of_lookup_none (hnone id)
  have husers : forall id, (Directory.start shards).manager.userOf id = none :=
    fun id => carried_of_lookup_none (hnone id)
  constructor
  · exact Issued.start shards
  · exact Indexes.empty hnames
  · exact Indexes.empty husers
  · intro id u hu
    rw [husers] at hu
    cases hu
  · intro id name hmem
    cases hmem
  · intro id name hname
    rw [hnames] at hname
    cases hname
  · intro id u hmem
    cases hmem
  · intro id u hu
    rw [husers] at hu
    cases hu

theorem nameOf_eq_none_of_not_named {id : Nat}
    (h : d.manager.isNamed id = false) :
    d.manager.nameOf id = none := by
  cases hid : d.manager.byId.lookup id with
  | none => exact carried_of_lookup_none hid
  | some slot =>
      unfold SessionManager.isNamed at h
      rw [hid] at h
      unfold SessionManager.nameOf
      rw [carried_of_lookup hid, if_pos]
      simpa [Session.isNamed] using h

theorem create (h : Consistent userIdOf d) {socket : Nat} {slot : Slot}
    {m : SessionManager} (hc : Created d.manager socket slot m) :
    Consistent userIdOf
      { d with manager := m, created := d.manager.nextId :: d.created } := by
  have hname : m.nameOf = d.manager.nameOf := by
    funext id
    refine carried_create h.slots hc ?_ id
    rw [hc.occupant]
    rfl
  have huser : m.userOf = d.manager.userOf := by
    funext id
    refine carried_create h.slots hc ?_ id
    rw [hc.occupant]
    rfl
  have hold : forall id, id < d.manager.nextId -> id < m.nextId := by
    intro id hid
    rw [hc.nextId]
    exact Nat.lt_succ_of_lt hid
  have hlive : forall id, id < d.manager.nextId ->
      (exists found, m.byId.lookup id = some found) -> d.Live id := by
    intro id hid hfound
    rw [hc.byId, AList.lookup_insert_ne (Nat.ne_of_lt hid)] at hfound
    exact hfound
  refine of_recorded (h.toIssued.create hc) ?_ ?_ ?_ ?_ ?_
  · show Indexes m.byName m.nameOf
    rw [hc.byName, hname]
    exact h.names
  · show Indexes m.byUserId m.userOf
    rw [hc.byUserId, huser]
    exact h.users
  · show forall id u, m.userOf id = some u -> _
    rw [huser, hname]
    exact h.assigned
  · show Recorded _ _ d.named m.nameOf
    rw [hname]
    exact h.recordedNames.mono hold hlive
  · show Recorded _ _ d.bound m.userOf
    rw [huser]
    exact h.recordedUsers.mono hold hlive

theorem setName (h : Consistent userIdOf d) {id : Nat} {name : List UInt8}
    {slot : Slot} (hname : name ≠ []) (hunnamed : d.manager.nameOf id = none)
    (hfree : d.manager.byName.lookup name = none)
    (hlive : d.manager.byId.lookup id = some slot) :
    Consistent userIdOf { d with
      manager := { d.manager.put slot ((d.manager.session slot).setName name)
        with byName := d.manager.byName.insert name id }
      named := (id, name) :: d.named } := by
  let s : Session := (d.manager.session slot).setName name
  have hnames : (d.manager.put slot s).nameOf =
      Function.update d.manager.nameOf id (some name) :=
    carried_put h.slots hlive hname
  have husers : (d.manager.put slot s).userOf = d.manager.userOf :=
    carried_put_same rfl
  have hunbound : d.manager.userOf id = none := by
    cases hu : d.manager.userOf id with
    | none => rfl
    | some u =>
        rcases h.assigned id u hu with ⟨other, hother, _⟩
        rw [hunnamed] at hother
        cases hother
  refine of_recorded (h.toIssued.rekey slot s rfl rfl) ?_ ?_ ?_ ?_ ?_
  · show Indexes (d.manager.byName.insert name id) (d.manager.put slot s).nameOf
    rw [hnames]
    exact h.names.insert hfree hunnamed
  · show Indexes d.manager.byUserId (d.manager.put slot s).userOf
    rw [husers]
    exact h.users
  · intro other u hu
    replace hu : (d.manager.put slot s).userOf other = some u := hu
    show exists found, (d.manager.put slot s).nameOf other = some found ∧ _
    rw [husers] at hu
    rw [hnames]
    have hne : other ≠ id := by
      intro hsame
      rw [hsame, hunbound] at hu
      cases hu
    rw [Function.update_of_ne hne]
    exact h.assigned other u hu
  · show Recorded _ d.Live ((id, name) :: d.named) (d.manager.put slot s).nameOf
    rw [hnames]
    refine h.recordedNames.insert (h.slots.live_lt hlive) ?_
    intro other hcontra
    rw [hunnamed] at hcontra
    cases hcontra
  · show Recorded _ d.Live d.bound (d.manager.put slot s).userOf
    rw [husers]
    exact h.recordedUsers

/-- A user id that is carried already can only be the one the name has. -/
theorem userOf_eq_iff (h : Consistent userIdOf d)
    (hinj : Function.Injective userIdOf) {id : Nat} {name : List UInt8}
    (hname : d.manager.nameOf id = some name) {other u : Nat}
    (hu : d.manager.userOf other = some u) :
    other = id <-> u = userIdOf name := by
  rcases h.assigned other u hu with ⟨found, hfound, hu'⟩
  constructor
  · intro heq
    rw [heq, hname] at hfound
    cases hfound
    exact hu'.symm
  · intro heq
    rw [heq] at hu'
    rw [hinj hu'] at hfound
    exact h.names.injective hfound hname

theorem indexes_setUserId (h : Consistent userIdOf d)
    (hinj : Function.Injective userIdOf) {id : Nat} {name : List UInt8}
    (hname : d.manager.nameOf id = some name) :
    Indexes (d.manager.byUserId.insert (userIdOf name) id)
      (Function.update d.manager.userOf id (some (userIdOf name))) := by
  cases hu : d.manager.userOf id with
  | some u =>
      have heq : u = userIdOf name := (h.userOf_eq_iff hinj hname hu).mp rfl
      rw [heq] at hu
      rw [← hu, Function.update_eq_self]
      exact h.users.insert_again hu
  | none =>
      refine h.users.insert ?_ hu
      cases hlookup : d.manager.byUserId.lookup (userIdOf name) with
      | none => rfl
      | some other =>
          have hother := (h.users _ other).mp hlookup
          rw [(h.userOf_eq_iff hinj hname hother).mpr rfl, hu] at hother
          cases hother

theorem setUserId (h : Consistent userIdOf d)
    (hpos : forall name, userIdOf name ≠ 0)
    (hinj : Function.Injective userIdOf) {id : Nat} {name : List UInt8}
    {slot : Slot} (hnamed : (id, name) ∈ d.named)
    (hlive : d.manager.byId.lookup id = some slot) :
    Consistent userIdOf { d with
      manager := { d.manager.put slot
          ((d.manager.session slot).setUserId (userIdOf name))
        with byUserId := d.manager.byUserId.insert (userIdOf name) id }
      bound := (id, userIdOf name) :: d.bound } := by
  let s : Session := (d.manager.session slot).setUserId (userIdOf name)
  have hname := (h.named id name hnamed).right ⟨slot, hlive⟩
  have hnames : (d.manager.put slot s).nameOf = d.manager.nameOf :=
    carried_put_same rfl
  have husers : (d.manager.put slot s).userOf =
      Function.update d.manager.userOf id (some (userIdOf name)) :=
    carried_put h.slots hlive (hpos name)
  refine of_recorded (h.toIssued.rekey slot s rfl rfl) ?_ ?_ ?_ ?_ ?_
  · show Indexes d.manager.byName (d.manager.put slot s).nameOf
    rw [hnames]
    exact h.names
  · show Indexes (d.manager.byUserId.insert (userIdOf name) id)
      (d.manager.put slot s).userOf
    rw [husers]
    exact h.indexes_setUserId hinj hname
  · intro other u hu
    replace hu : (d.manager.put slot s).userOf other = some u := hu
    show exists found, (d.manager.put slot s).nameOf other = some found ∧ _
    rw [husers] at hu
    rw [hnames]
    by_cases hother : other = id
    · rw [hother, Function.update_self] at hu
      cases hu
      exact ⟨name, by rw [hother]; exact hname, rfl⟩
    · rw [Function.update_of_ne hother] at hu
      exact h.assigned other u hu
  · show Recorded _ d.Live d.named (d.manager.put slot s).nameOf
    rw [hnames]
    exact h.recordedNames
  · show Recorded _ d.Live ((id, userIdOf name) :: d.bound)
      (d.manager.put slot s).userOf
    rw [husers]
    exact h.recordedUsers.insert (h.slots.live_lt hlive)
      (fun u hu => (h.userOf_eq_iff hinj hname hu).mp rfl)

/-- Work of a session that keeps its owner. -/
theorem put (h : Consistent userIdOf d) {slot : Slot} {s : Session}
    (howner : SameOwner (d.manager.session slot) s) :
    Consistent userIdOf { d with manager := d.manager.put slot s } := by
  have hnames : (d.manager.put slot s).nameOf = d.manager.nameOf :=
    carried_put_same howner.name
  have husers : (d.manager.put slot s).userOf = d.manager.userOf :=
    carried_put_same howner.userId
  refine of_recorded (h.toIssued.rekey slot s howner.id howner.index) ?_ ?_ ?_
    ?_ ?_
  · show Indexes d.manager.byName (d.manager.put slot s).nameOf
    rw [hnames]
    exact h.names
  · show Indexes d.manager.byUserId (d.manager.put slot s).userOf
    rw [husers]
    exact h.users
  · show forall id u, (d.manager.put slot s).userOf id = some u ->
      exists name, (d.manager.put slot s).nameOf id = some name ∧ _
    rw [hnames, husers]
    exact h.assigned
  · show Recorded _ d.Live d.named (d.manager.put slot s).nameOf
    rw [hnames]
    exact h.recordedNames
  · show Recorded _ d.Live d.bound (d.manager.put slot s).userOf
    rw [husers]
    exact h.recordedUsers

/-- The entry of a key goes with the session that carries it, if one does. -/
theorem indexes_erase {key : Type} [DecidableEq key] {index : Table key Nat}
    {m : SessionManager} {read : Session -> key} {blank : key} {id : Nat}
    {slot : Slot} (hindex : Indexes index (m.carried read blank))
    (hlive : m.byId.lookup id = some slot) :
    Indexes (index.erase (read (m.session slot)))
      (Function.update (m.carried read blank) id none) := by
  by_cases hblank : read (m.session slot) = blank
  · have hnone : m.carried read blank id = none := by
      rw [carried_of_lookup hlive, if_pos hblank]
    rw [← hnone, Function.update_eq_self, hblank]
    apply hindex.erase_unused
    intro other hcontra
    rcases carried_eq_some_iff.mp hcontra with ⟨_, _, _, hne⟩
    exact hne rfl
  · apply hindex.erase
    rw [carried_of_lookup hlive, if_neg hblank]

theorem destroy (h : Consistent userIdOf d) {id : Nat} {slot : Slot}
    (hlive : d.manager.byId.lookup id = some slot) :
    Consistent userIdOf { d with manager := d.manager.destroy slot } := by
  have hnames : (d.manager.destroy slot).nameOf =
      Function.update d.manager.nameOf id none := carried_destroy h.slots hlive
  have husers : (d.manager.destroy slot).userOf =
      Function.update d.manager.userOf id none := carried_destroy h.slots hlive
  have hgone : forall other,
      (exists place, (d.manager.destroy slot).byId.lookup other = some place) ->
      other ≠ id ∧ d.Live other := by
    intro other hnow
    rcases hnow with ⟨place, hplace⟩
    rcases h.live_of_destroy hlive hplace with ⟨hne, hbefore⟩
    exact ⟨hne, place, hbefore⟩
  refine of_recorded (h.toIssued.destroy hlive) ?_ ?_ ?_ ?_ ?_
  · show Indexes _ (d.manager.destroy slot).nameOf
    rw [hnames]
    exact indexes_erase h.names hlive
  · show Indexes _ (d.manager.destroy slot).userOf
    rw [husers]
    exact indexes_erase h.users hlive
  · intro other u hu
    replace hu : (d.manager.destroy slot).userOf other = some u := hu
    show exists found, (d.manager.destroy slot).nameOf other = some found ∧ _
    rw [husers] at hu
    rw [hnames]
    by_cases hother : other = id
    · rw [hother, Function.update_self] at hu
      cases hu
    · rw [Function.update_of_ne hother] at hu ⊢
      exact h.assigned other u hu
  · show Recorded _ _ d.named (d.manager.destroy slot).nameOf
    rw [hnames]
    exact h.recordedNames.erase hgone
  · show Recorded _ _ d.bound (d.manager.destroy slot).userOf
    rw [husers]
    exact h.recordedUsers.erase hgone

end Consistent

theorem consistent_preserved {userIdOf : List UInt8 -> Nat}
    (hpos : forall name, userIdOf name ≠ 0)
    (hinj : Function.Injective userIdOf) :
    Preserved (Directory.step userIdOf) (Consistent userIdOf) := by
  intro d event e h hstep
  rcases Directory.step_cases hstep with
    ⟨socket, rfl, ⟨_, rfl⟩ | ⟨slot, m, hcreate, rfl⟩⟩ |
    ⟨id, name, rfl, hname, hunnamed, rfl | ⟨slot, hfree, hlive, rfl⟩⟩ |
    ⟨id, name, rfl, hnamed, rfl | ⟨slot, hlive, rfl⟩⟩ |
    ⟨id, slot, rfl, hlive, rfl⟩
  · exact h
  · exact h.create (create_created hcreate)
  · exact h
  · exact h.setName hname (Consistent.nameOf_eq_none_of_not_named hunnamed)
      hfree hlive
  · exact h
  · exact h.setUserId hpos hinj hnamed hlive
  · exact h.destroy hlive

theorem consistent_run {userIdOf : List UInt8 -> Nat}
    (hpos : forall name, userIdOf name ≠ 0)
    (hinj : Function.Injective userIdOf) {shards : Nat}
    {events : List Directory.Event} {d : Directory}
    (hrun : runFrom (Directory.step userIdOf) (.start shards) events = some d) :
    Consistent userIdOf d :=
  (consistent_preserved hpos hinj).run (Consistent.start shards) hrun

/-!
# The registry after any run
-/

namespace Consistent

variable {userIdOf : List UInt8 -> Nat} {d : Directory}

/-- A name is indexed exactly for the live session that has it. -/
theorem lookup_name (h : Consistent userIdOf d) (name : List UInt8) (id : Nat) :
    d.manager.byName.lookup name = some id <->
      exists slot, d.manager.byId.lookup id = some slot ∧
        (d.manager.session slot).name = name ∧
        (d.manager.session slot).isNamed = true := by
  rw [h.names name id]
  unfold SessionManager.nameOf
  rw [carried_eq_some_iff]
  have hset : forall s : Session, s.isNamed = true <-> s.name ≠ [] := by
    intro s
    simp [Session.isNamed]
  constructor
  · intro hname
    rcases hname with ⟨slot, hlive, hread, hne⟩
    exact ⟨slot, hlive, hread, (hset _).mpr (by rw [hread]; exact hne)⟩
  · intro hname
    rcases hname with ⟨slot, hlive, hread, hnamed⟩
    refine ⟨slot, hlive, hread, ?_⟩
    rw [← hread]
    exact (hset _).mp hnamed

/-- A user id is indexed exactly for the live session it was set on. -/
theorem lookup_user (h : Consistent userIdOf d) (u id : Nat) :
    d.manager.byUserId.lookup u = some id <-> d.Live id ∧ (id, u) ∈ d.bound := by
  rw [h.users u id]
  constructor
  · intro huser
    rcases carried_eq_some_iff.mp huser with ⟨slot, hlive, _, _⟩
    exact ⟨⟨slot, hlive⟩, h.userLogged id u huser⟩
  · intro hbound
    exact (h.bound id u hbound.right).right hbound.left

/-- Once its holder is destroyed, a name is free for every live session. -/
theorem name_free_after_destroy (h : Consistent userIdOf d) {id : Nat}
    {slot : Slot} {name : List UInt8}
    (hlive : d.manager.byId.lookup id = some slot)
    (hname : d.manager.byName.lookup name = some id) {other : Nat}
    (hother : d.Live other) (hne : other ≠ id) :
    ((d.manager.destroy slot).setName other name).1 = true := by
  rcases (h.lookup_name name id).mp hname with ⟨found, hfound, hread, _⟩
  rw [hlive] at hfound
  cases hfound
  rcases setName_cases (d.manager.destroy slot) other name with
    ⟨_, ⟨owner, howner⟩ | hgone⟩ | ⟨place, _, _, heq⟩
  · replace howner :
        (d.manager.byName.erase (d.manager.session slot).name).lookup name =
          some owner := howner
    rw [hread, AList.lookup_erase] at howner
    cases howner
  · rcases hother with ⟨place, hplace⟩
    replace hgone :
        (d.manager.byId.erase (d.manager.session slot).id).lookup other = none :=
      hgone
    rw [(h.slots.owner id slot hlive).left, AList.lookup_erase_ne hne,
      hplace] at hgone
    cases hgone
  · rw [heq]

end Consistent

/--
The registry after any interleaving of `Create`, `SetName`, `SetUserId` and
`Destroy`, for a database that gives distinct names distinct non-zero user ids.
-/
theorem registry_consistent {userIdOf : List UInt8 -> Nat}
    (hpos : forall name, userIdOf name ≠ 0)
    (hinj : Function.Injective userIdOf) {shards : Nat}
    {events : List Directory.Event} {d : Directory}
    (hrun : runFrom (Directory.step userIdOf) (.start shards) events = some d) :
    (forall id slot, d.manager.byId.lookup id = some slot ->
        (d.manager.session slot).id = id ∧ id ∈ d.created) ∧
      d.created.Nodup ∧
      (forall name id, d.manager.byName.lookup name = some id <->
        exists slot, d.manager.byId.lookup id = some slot ∧
          (d.manager.session slot).name = name ∧
          (d.manager.session slot).isNamed = true) ∧
      (forall u id, d.manager.byUserId.lookup u = some id <->
        d.Live id ∧ (id, u) ∈ d.bound) ∧
      (forall id slot u, d.manager.byId.lookup id = some slot ->
        d.manager.byUserId.lookup u = some id ->
        (d.manager.session slot).userId = u) ∧
      (forall name name' id, d.manager.byName.lookup name = some id ->
        d.manager.byName.lookup name' = some id -> name = name') ∧
      (forall u u' id, d.manager.byUserId.lookup u = some id ->
        d.manager.byUserId.lookup u' = some id -> u = u') ∧
      (forall id slot name other, d.manager.byId.lookup id = some slot ->
        d.manager.byName.lookup name = some id -> d.Live other -> other ≠ id ->
        ((d.manager.destroy slot).setName other name).1 = true) := by
  have h := consistent_run hpos hinj hrun
  refine ⟨?_, h.ids, h.lookup_name, h.lookup_user, ?_, ?_, ?_, ?_⟩
  · intro id slot hlive
    exact ⟨(h.slots.owner id slot hlive).left, h.listed id ⟨slot, hlive⟩⟩
  · intro id slot u hlive hlookup
    rcases carried_eq_some_iff.mp ((h.users u id).mp hlookup) with
      ⟨found, hfound, hread, _⟩
    rw [hlive] at hfound
    cases hfound
    exact hread
  · intro name name' id hname hname'
    have hsame := (h.names name id).mp hname
    rw [(h.names name' id).mp hname'] at hsame
    cases hsame
    rfl
  · intro u u' id hu hu'
    have hsame := (h.users u id).mp hu
    rw [(h.users u' id).mp hu'] at hsame
    cases hsame
    rfl
  · intro id slot name other hlive hname hother hne
    exact h.name_free_after_destroy hlive hname hother hne

/-- A database that numbers all names. -/
def nameNumber (name : List UInt8) : Nat :=
  Encodable.encode (name.map UInt8.toNat) + 1

theorem nameNumber_injective : Function.Injective nameNumber := by
  intro a b hsame
  have hmap := Encodable.encode_injective (Nat.succ.inj hsame)
  refine List.map_injective_iff.mpr ?_ hmap
  intro x y hxy
  exact UInt8.toNat_inj.mp hxy

/-- Bob leaves, and the next session takes his name in the same slot. -/
def returningEvents : List Directory.Event :=
  [.create 3, .setName 1 (text "bob"),
    .setUserId 1 (nameNumber (text "bob")), .destroy 1, .create 4,
    .setName 2 (text "bob")]

theorem registry_consistent_returning :
    exists d, runFrom (Directory.step nameNumber) (.start 8) returningEvents =
        some d ∧
      d.manager.byName.lookup (text "bob") = some 2 ∧ d.created.Nodup := by
  have hrun : (runFrom (Directory.step nameNumber) (.start 8)
      returningEvents).map (fun d => d.manager.byName.lookup (text "bob")) =
      some (some 2) := by decide +kernel
  rcases Option.map_eq_some_iff.mp hrun with ⟨d, hd, hbob⟩
  have hpos : forall name, nameNumber name ≠ 0 := fun _ => Nat.succ_ne_zero _
  have hconsistent := registry_consistent hpos nameNumber_injective hd
  exact ⟨d, hd, hbob, hconsistent.right.left⟩

end Registry
end ContentServer
