import EventQuery.Proofs.Dataset.Lowering

/-! Naming the default entity of a joined event. A join without entities matches on the default
entity, a join that names it on the first entity of that name. The two are checked and lowered alike
when the first entity of that name has the same id column, and to different datasets otherwise. -/

namespace EventQuery

open Outcome

variable {ρ : Type} {catalog : Catalog} {base event : Event} {d x : Entity}

/-- The first entity with the name of `d` has the id column of `d`. -/
def Event.FindsColumnOf (event : Event) (d : Entity) : Prop :=
  (event.entity? d.name).map (·.idColumn) = some d.idColumn

instance (event : Event) (d : Entity) : Decidable (event.FindsColumnOf d) :=
  inferInstanceAs (Decidable (_ = _))

def JoinClause.nameEntity (j : JoinClause ρ) (entity : Located ρ String) : JoinClause ρ :=
  { j with entities := [entity] }

/-- The query whose join of an index names one entity. -/
def Query.nameEntity (q : Query ρ) (index : Nat) (entity : Located ρ String) : Query ρ :=
  { q with joins := q.joins.modify index (·.nameEntity entity) }

/-- The name of an entity of an event leads to it or to one in front of it. -/
theorem Event.exists_entity?_of_mem (h : d ∈ event.entities) :
    ∃ x, event.entity? d.name = some x ∧ x.name = d.name := by
  obtain ⟨x, hx⟩ : ∃ x, event.entity? d.name = some x :=
    Option.isSome_iff_exists.mp (List.find?_isSome.mpr ⟨d, h, beq_self_eq_true _⟩)
  exact ⟨x, hx, Event.name_of_entity? hx⟩

theorem Validation.alike_self {α : Type} (x : Except (Located ρ Fault) α) :
    Alike (fun e e' => e.value = e'.value) (· = ·) x x :=
  Alike.refl.imp (fun h => h ▸ rfl) id

/-! ## Keys with the same columns -/

theorem isKeyColumn_singleton (k : Entity) (column : String) :
    isKeyColumn [k] column = (k.idColumn == column) := by
  rw [isKeyColumn, List.any_cons, List.any_nil, Bool.or_false]

theorem Validation.groupedColumn_congr (hcolumn : x.idColumn = d.idColumn) (c : Column ρ) :
    groupedColumn event [x] c = groupedColumn event [d] c := by
  rw [groupedColumn, groupedColumn, isKeyColumn_singleton, isKeyColumn_singleton, hcolumn]

theorem Lowering.joinedColumn_congr (hcolumn : x.idColumn = d.idColumn) (selector : Selector)
    (c : Column ρ) : joinedColumn event [x] selector c = joinedColumn event [d] selector c := by
  cases c with
  | reference source name place =>
    simp only [joinedColumn, columnValue, isKeyColumn_singleton, hcolumn]
  | aggregation function argument name place => rfl

theorem Lowering.key_congr (hname : x.name = d.name) (hcolumn : x.idColumn = d.idColumn) :
    key base x = key base d := by
  rw [key, key, hname, hcolumn]

/-! ## A join that names its entity -/

section
variable {j : JoinClause ρ} {entity : Located ρ String}
  (hx : event.entity? entity.value = some x)
include hx

theorem JoinClause.keys_nameEntity : (j.nameEntity entity).keys event = [x] := by
  rw [keys_of_not_isEmpty (by simp [nameEntity])]
  exact List.filterMap_cons_some hx

theorem Validation.requestedKeys_nameEntity :
    requestedKeys event (j.nameEntity entity) = .ok [entity] := by
  rw [requestedKeys, if_neg (by simp [JoinClause.nameEntity]), seq_eq_ok_iff, forM_eq_ok_iff]
  refine ⟨fun e he => ?_, rfl⟩
  rw [List.mem_singleton.mp he, hx]
  rfl

theorem Lowering.entities_nameEntity : ((j.nameEntity entity).entities.forM fun e => do
    let _ ← orFault (.unknownEntity event.name e.value) (event.entity? e.value)) = .ok () := by
  rw [forM_eq_ok_iff]
  intro e he
  rw [List.mem_singleton.mp he, entity_check_iff, hx]
  rfl

end

/-! ## A join that leaves its entity out -/

section
variable {j : JoinClause ρ} (hempty : j.entities = []) (hdefault : event.defaultEntity? = some d)
include hempty hdefault

theorem JoinClause.keys_of_default : j.keys event = [d] := by
  rw [keys_of_isEmpty (by rw [hempty]; rfl), hdefault, Option.toList_some]

/-- The default entity is asked for under its name, at the place of the event. -/
theorem Validation.requestedKeys_of_default :
    requestedKeys event j = .ok [⟨d.name, j.event.place⟩] := by
  rw [requestedKeys, hempty, hdefault]
  rfl

/-- The base event may lack the entity, which is reported at the event or at the name. -/
theorem Validation.keys_nameEntity_alike (hx : event.entity? d.name = some x) (place : ρ) :
    Alike (fun e e' => e.value = e'.value) (fun keys keys' => keys = [d] ∧ keys' = [x])
      (Validation.keys base event j)
      (Validation.keys base event (j.nameEntity ⟨d.name, place⟩)) := by
  rw [Validation.keys, Validation.keys, requestedKeys_of_default hempty hdefault,
    requestedKeys_nameEntity hx, JoinClause.keys_of_default hempty hdefault,
    JoinClause.keys_nameEntity hx, ok_bind, ok_bind]
  have hshared : Alike (fun e e' => e.value = e'.value) (· = ·)
      (failUnless (base.entity? d.name).isSome (.unknownEntity base.name d.name) j.event.place)
      (failUnless (base.entity? d.name).isSome (.unknownEntity base.name d.name) place) := by
    cases (base.entity? d.name).isSome with
    | true => exact .ok rfl
    | false => exact .error rfl
  exact (hshared.bind fun _ => .ok rfl).bind fun _ => .ok ⟨rfl, rfl⟩

variable (hevent : catalog.find? j.event.value = some event) (place : ρ)
include hevent

/-- The keys of a joined event show the column that was found. -/
theorem Lowering.findsColumnOf_of_join_nameEntity {r : JoinedEvent}
    (h : Lowering.join catalog base j = .ok r)
    (h' : Lowering.join catalog base (j.nameEntity ⟨d.name, place⟩) = .ok r) :
    event.FindsColumnOf d := by
  obtain ⟨x, hx, -⟩ := Event.exists_entity?_of_mem (List.mem_of_find?_eq_some hdefault)
  obtain ⟨hfound, -, -, -, -, hkeys, -⟩ := join_eq_ok_iff.mp h
  obtain ⟨-, -, -, -, -, hkeys', -⟩ := join_eq_ok_iff.mp h'
  obtain rfl : event = r.event := Option.some.inj (hevent.symm.trans hfound)
  rw [JoinClause.keys_of_default hempty hdefault] at hkeys
  rw [JoinClause.keys_nameEntity hx] at hkeys'
  have hcolumns := map_joinedColumn_of_keys hkeys
  rw [map_joinedColumn_of_keys hkeys'] at hcolumns
  rw [Event.FindsColumnOf, hx]
  exact congrArg some (List.cons.inj hcolumns).1

variable (hfinds : event.FindsColumnOf d)
include hfinds

theorem Validation.join_nameEntity_alike :
    Alike (fun e e' => e.value = e'.value) (· = ·) (Validation.join catalog base j)
      (Validation.join catalog base (j.nameEntity ⟨d.name, place⟩)) := by
  obtain ⟨x, hx, hcolumn⟩ := Option.map_eq_some_iff.mp hfinds
  have hfound : Validation.event catalog j.event = .ok event := event_eq_ok_iff.mpr hevent
  have hfound' : Validation.event catalog (j.nameEntity ⟨d.name, place⟩).event = .ok event := hfound
  rw [Validation.join, Validation.join, hfound, hfound', ok_bind, ok_bind]
  refine (keys_nameEntity_alike hempty hdefault hx place).bind ?_
  rintro _ _ ⟨rfl, rfl⟩
  -- The rest of the check reads no more of the keys than their id columns.
  rw [show (groupedColumn event [x] : Column ρ → _) = groupedColumn event [d] from
    funext (groupedColumn_congr hcolumn)]
  exact alike_self _

theorem Lowering.join_nameEntity :
    Lowering.join catalog base (j.nameEntity ⟨d.name, place⟩) = Lowering.join catalog base j := by
  obtain ⟨x, hx, hcolumn⟩ := Option.map_eq_some_iff.mp hfinds
  have hfound : lookup catalog j.event.value = .ok event := lookup_eq_ok_iff.mpr hevent
  have hfound' : lookup catalog (j.nameEntity ⟨d.name, place⟩).event.value = .ok event := hfound
  have hkeys : [x].mapM (key base) = [d].mapM (key base) := by
    rw [List.mapM_cons, List.mapM_cons, key_congr (Event.name_of_entity? hx) hcolumn]
  have hcolumns : (joinedColumn event [x] j.selector.value : Column ρ → _) =
      joinedColumn event [d] j.selector.value :=
    funext (joinedColumn_congr hcolumn j.selector.value)
  rw [Lowering.join, Lowering.join, hfound, hfound', ok_bind, ok_bind, entities_nameEntity hx,
    JoinClause.keys_of_default hempty hdefault, JoinClause.keys_nameEntity hx, hempty]
  simp only [JoinClause.nameEntity, hkeys, hcolumns]
  rfl

end

/-! ## Queries -/

theorem Query.joins_nameEntity {q : Query ρ} {i : Nat} {j : JoinClause ρ}
    (hj : q.joins[i]? = some j) (entity : Located ρ String) :
    ∃ before after, q.joins = before ++ j :: after ∧
      (q.nameEntity i entity).joins = before ++ j.nameEntity entity :: after := by
  obtain ⟨hi, rfl⟩ := List.getElem?_eq_some_iff.mp hj
  refine ⟨q.joins.take i, q.joins.drop (i + 1), ?_, List.modify_eq_take_cons_drop hi⟩
  rw [List.getElem_cons_drop, List.take_append_drop]

section
variable {q : Query ρ} {i : Nat} {j : JoinClause ρ} (hj : q.joins[i]? = some j)
  (hempty : j.entities = []) (hevent : catalog.find? j.event.value = some event)
  (hdefault : event.defaultEntity? = some d)
include hj hempty hevent hdefault

theorem Query.validate_nameEntity_alike (hfinds : event.FindsColumnOf d) (place : ρ) :
    Alike (fun e e' => e.value = e'.value) (· = ·) (q.validate catalog)
      ((q.nameEntity i ⟨d.name, place⟩).validate catalog) := by
  obtain ⟨before, after, hjoins, hjoins'⟩ := joins_nameEntity hj ⟨d.name, place⟩
  rw [validate, validate, hjoins, hjoins']
  refine (Validation.alike_self (Validation.select catalog q.select)).bind ?_
  rintro base _ rfl
  rw [List.forM_eq_forM, List.forM_append, List.forM_append, List.forM_cons, List.forM_cons]
  refine (Validation.alike_self _).bind fun _ => ?_
  refine (Validation.join_nameEntity_alike hempty hdefault hevent place hfinds).bind fun _ => ?_
  exact Validation.alike_self _

theorem Query.toDataset_nameEntity (hfinds : event.FindsColumnOf d) (place : ρ) :
    (q.nameEntity i ⟨d.name, place⟩).toDataset catalog = q.toDataset catalog := by
  obtain ⟨before, after, hjoins, hjoins'⟩ := joins_nameEntity hj ⟨d.name, place⟩
  have hjoin (base : Event) : Lowering.join catalog base (j.nameEntity ⟨d.name, place⟩) =
      Lowering.join catalog base j :=
    Lowering.join_nameEntity hempty hdefault hevent place hfinds
  rw [toDataset, toDataset, hjoins, hjoins']
  simp only [List.mapM_append, List.mapM_cons, hjoin]
  rfl

theorem Query.findsColumnOf_of_toDataset {place : ρ} {dataset : Dataset}
    (h : q.toDataset catalog = .ok dataset)
    (h' : (q.nameEntity i ⟨d.name, place⟩).toDataset catalog = .ok dataset) :
    event.FindsColumnOf d := by
  have hj' : (q.nameEntity i ⟨d.name, place⟩).joins[i]? = some (j.nameEntity ⟨d.name, place⟩) := by
    rw [nameEntity, List.getElem?_modify_eq, hj]
    rfl
  obtain ⟨r, hr, hlowered⟩ := exists_getElem?_of_forall₂ (toDataset_eq_ok_iff.mp h).2 hj
  obtain ⟨r', hr', hlowered'⟩ := exists_getElem?_of_forall₂ (toDataset_eq_ok_iff.mp h').2 hj'
  obtain rfl : r = r' := Option.some.inj (hr.symm.trans hr')
  exact Lowering.findsColumnOf_of_join_nameEntity hempty hdefault hevent place hlowered hlowered'

end

/-- **Naming the default entity of a joined event is the same as naming none**, for checking up to
the place of a fault and for the dataset, when the first entity with the name of the default has its
id column. When it does not, the query has another dataset or none. -/
theorem naming_default_entity_iff {q : Query ρ} {i : Nat} {j : JoinClause ρ}
    (hj : q.joins[i]? = some j) (hempty : j.entities = [])
    (hevent : catalog.find? j.event.value = some event)
    (hdefault : event.defaultEntity? = some d) (place : ρ) :
    (event.FindsColumnOf d →
        Alike (fun e e' => e.value = e'.value) (· = ·) (q.validate catalog)
          ((q.nameEntity i ⟨d.name, place⟩).validate catalog) ∧
        (q.nameEntity i ⟨d.name, place⟩).toDataset catalog = q.toDataset catalog) ∧
      ∀ dataset, q.toDataset catalog = .ok dataset →
        ((q.nameEntity i ⟨d.name, place⟩).toDataset catalog = .ok dataset ↔
          event.FindsColumnOf d) := by
  refine ⟨fun hfinds => ⟨?_, ?_⟩, fun dataset h => ⟨fun h' => ?_, fun hfinds => ?_⟩⟩
  · exact Query.validate_nameEntity_alike hj hempty hevent hdefault hfinds place
  · exact Query.toDataset_nameEntity hj hempty hevent hdefault hfinds place
  · exact Query.findsColumnOf_of_toDataset hj hempty hevent hdefault h h'
  · rw [Query.toDataset_nameEntity hj hempty hevent hdefault hfinds place, h]

def oldId (name : String) : Entity := ⟨name, "old_id", false⟩

/-- Logins with a default entity behind another one. -/
def defaultLoginEvent (first : Entity) : Event :=
  ⟨"login", "event_id", "ts", [first, ⟨"user", "user_id", true⟩], [], "logins"⟩

def signupLoginEvents (first : Entity) : List Event :=
  [⟨"signup", "event_id", "ts", [⟨"user", "user_id", true⟩], [], "signups"⟩,
    defaultLoginEvent first]

/-- The logins after the first signup, counted for each user. -/
def loginsJoin : JoinClause Unit where
  qualifier := ⟨.after, ()⟩
  selector := ⟨.omitted, ()⟩
  event := ⟨"login", ()⟩
  entities := []
  columns := [.aggregation ⟨.count, ()⟩ ⟨"event_id", ()⟩ ⟨"logins", ()⟩ ()]
  filter := none
  place := ()

def loginsQuery : Query Unit where
  select := ⟨⟨.first, ()⟩, ⟨"signup", ()⟩, [.reference ⟨"user_id", ()⟩ ⟨"id", ()⟩ ()], ()⟩
  joins := [loginsJoin]
  place := ()

def loginsDataset (first : Entity) (joinedColumn : String) : Dataset where
  base := ⟨⟨"signup", "event_id", "ts", [⟨"user", "user_id", true⟩], [], "signups"⟩, .first,
    "user_id", [⟨"id", "user_id", "user_id"⟩]⟩
  joins := [⟨defaultLoginEvent first, .after, .omitted, [⟨"user", joinedColumn, "user_id"⟩],
    [⟨"logins", .aggregation .count "event_id" "event_id"⟩], none⟩]

theorem naming_user_keeps_logins :
    loginsQuery.joins[0]? = some loginsJoin ∧ loginsJoin.entities = [] ∧
      (Catalog.unchecked (signupLoginEvents (oldId "device"))).find? loginsJoin.event.value =
        some (defaultLoginEvent (oldId "device")) ∧
      (defaultLoginEvent (oldId "device")).defaultEntity? = some ⟨"user", "user_id", true⟩ ∧
      (loginsQuery.nameEntity 0 ⟨"user", ()⟩).toDataset
        (.unchecked (signupLoginEvents (oldId "device"))) =
        .ok (loginsDataset (oldId "device") "user_id") := by
  have hevent : (Catalog.unchecked (signupLoginEvents (oldId "device"))).find?
      loginsJoin.event.value = some (defaultLoginEvent (oldId "device")) := by decide +kernel
  refine ⟨rfl, rfl, hevent, rfl, ?_⟩
  rw [((naming_default_entity_iff rfl rfl hevent rfl ()).1 (by decide)).2]
  decide +kernel

/-- With an entity of the same name in front of the default one, naming it changes the key. -/
theorem naming_second_user_changes_logins :
    Catalog.ofEvents (signupLoginEvents (oldId "user")) =
        .ok (.unchecked (signupLoginEvents (oldId "user"))) ∧
      loginsQuery.joins[0]? = some loginsJoin ∧ loginsJoin.entities = [] ∧
      (Catalog.unchecked (signupLoginEvents (oldId "user"))).find? loginsJoin.event.value =
        some (defaultLoginEvent (oldId "user")) ∧
      (defaultLoginEvent (oldId "user")).defaultEntity? = some ⟨"user", "user_id", true⟩ ∧
      loginsQuery.toDataset (.unchecked (signupLoginEvents (oldId "user"))) =
        .ok (loginsDataset (oldId "user") "user_id") ∧
      (loginsQuery.nameEntity 0 ⟨"user", ()⟩).toDataset
        (.unchecked (signupLoginEvents (oldId "user"))) =
        .ok (loginsDataset (oldId "user") "old_id") ∧
      loginsDataset (oldId "user") "old_id" ≠ loginsDataset (oldId "user") "user_id" := by
  refine ⟨rfl, ?_⟩
  decide +kernel

end EventQuery
