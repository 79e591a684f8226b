import Governance.Asset.PolicyAssignment
import Governance.Asset.PolicySetDefinition
import Governance.Hierarchy.View
import Governance.Proofs.Json.Rereading

/-!
# `Governance.Proofs.Asset.Rereading`: assets that survive being written

Every kind of asset, and the view of a hierarchy with all the assets in it, is read again from the
JSON that is written for it. Each record is an instance of `Survives.record`: field by field, what
is written is read as what was there, and a field is left out only where reading puts it back.

* `<Record>.survives` says so for each record, from the innermost to the views.
* `assets_reread` gathers the documents that a library or a report consists of.

Metadata of a parameter is the one record with members that have no field. They are kept beside the
fields, and none of them has the name of a field (`ParameterMetadata.survives`).
-/

set_option autoImplicit false

namespace Governance

open Json

/-! ### Parameters -/

namespace ParameterMetadata

/-- What was read as metadata, field by field. -/
theorem decode_cases {d : Json} {m : ParameterMetadata} (h : decode d = some m) :
    ∃ (fs : Fields Json) (rest : List (String × Json)) (es : List (String × Json)),
      fs.optional "displayName" readText = some m.displayName ∧
      fs.optional "description" readText = some m.description ∧
      fs.withDefault "assignPermissions" false readBool = some m.assignPermissions ∧
      (∀ e ∈ rest, e.1 ∉ fieldNames) ∧ readMembers readAny rest = some es ∧
      OrderedMap.ofList es = m.extra := by
  cases d with
  | object members =>
    -- Only an object shows metadata, since other values have no members to be kept.
    simp only [decode, Source.layer, topLayer, Option.bind_eq_bind, Option.pure_def,
      Option.bind_eq_some_iff, Option.some.injEq] at h
    obtain ⟨fs, -, name, hname, description, hdescription, asks, hasks, es, hes, rfl⟩ := h
    refine ⟨fs, _, es, hname, hdescription, hasks, fun e he => ?_, hes, rfl⟩
    simpa using (List.mem_filter.mp he).2
  | _ => cases h

/-- What is written for metadata: its fields, then the members without a field. -/
def written (m : ParameterMetadata) : List (String × Option Json) := [
  ("displayName", m.displayName.map .string),
  ("description", m.description.map .string),
  ("assignPermissions", if m.assignPermissions then some (.bool true) else none)] ++
  m.extra.entries.map fun e => (e.1, some e.2)

/-- The question for permissions is left out only where it is false, as one that is missing. -/
theorem asked_written {ws : Fields Json} {name : String} {b : Bool}
    (h : ws.lookup name = if b then some (.bool true) else none) :
    ws.lookup name = some (.bool b) ∨ ws.lookup name = none ∧ b = false := by
  cases b with
  | true => exact .inl h
  | false => exact .inr ⟨h, rfl⟩

section Written

variable {m : ParameterMetadata} (h : ∀ name ∈ m.extra.keys, name ∉ fieldNames)

include h

/-- No name is written twice where no other member has the name of a field. -/
theorem nodup_written : (m.written.map Prod.fst).Nodup := by
  have hfields : fieldNames.Nodup := by decide
  rw [written, List.map_append, List.map_map]
  refine List.nodup_append.mpr ⟨hfields, m.extra.nodup_keys, ?_⟩
  rintro name hname other hother rfl
  exact h name hother hname

/-- The members without a field are found among all that was written. -/
theorem filter_written :
    (m.written.filterMap fun f => f.2.map (f.1, ·)).filter (fun e => !fieldNames.contains e.1) =
      m.extra.entries := by
  have hextra : ∀ e ∈ m.extra.entries, (!fieldNames.contains e.1) = true := by
    intro e he
    have hkey := h e.1 (List.mem_map_of_mem he)
    simpa using hkey
  -- Whatever is written of the fields has the name of a field, so it is filtered out as a whole.
  have hfields : ∀ fields : List (String × Option Json), (∀ f ∈ fields, f.1 ∈ fieldNames) →
      (fields.filterMap fun f => f.2.map (f.1, ·)).filter
        (fun e => !fieldNames.contains e.1) = [] := by
    intro fields hown
    refine List.filter_eq_nil_iff.mpr fun e he => ?_
    obtain ⟨f, hf, heq⟩ := List.mem_filterMap.mp he
    obtain ⟨v, -, rfl⟩ := Option.map_eq_some_iff.mp heq
    simpa using hown f hf
  rw [written, List.filterMap_append, List.filter_append, hfields _ (by simp [fieldNames]),
    List.nil_append, List.filterMap_map]
  simpa [Function.comp_def] using hextra

end Written

/-- The members without a field come after the fields, and no name stands twice. -/
theorem survives : Survives decode encode where
  again {d m} h := by
    obtain ⟨fs, rest, es, hname, hdescription, hasks, hrest, hes, hextra⟩ := decode_cases h
    -- The members that were kept have no names of fields, since they were filtered when they were
    -- read.
    have hforeign : ∀ name ∈ m.extra.keys, name ∉ fieldNames := by
      intro name hkey
      obtain ⟨v, hv⟩ := OrderedMap.mem_keys.mp hkey
      obtain ⟨d, hd, -⟩ := exists_of_readMembers hes (OrderedMap.mem_of_get?_ofList (hextra ▸ hv))
      exact hrest _ hd
    obtain ⟨ws, hread, hws⟩ := exists_fields fieldNames (nodup_written hforeign)
    have hothers : readMembers readAny ((m.written.filterMap fun f => f.2.map (f.1, ·)).filter
        fun e => !fieldNames.contains e.1) = some m.extra.entries := by
      rw [filter_written hforeign]
      have hvalues : readMembers readAny (m.extra.entries.map fun e => (e.1, id e.2)) =
          some m.extra.entries := readMembers_map fun _ _ => rfl
      simpa using hvalues
    -- The fields are read from all that was written, and the members from what is left without the
    -- fields.
    change (readFields fieldNames (record m.written) >>= fun fs => _) = _
    simp only [Option.bind_eq_bind, Option.pure_def, Option.bind_eq_some_iff, Option.some.injEq]
    refine ⟨ws, hread, _, survives_text.optional hname (hws _ _ ?_),
      _, survives_text.optional hdescription (hws _ _ ?_),
      _, survives_bool.withDefault hasks (asked_written (hws _ _ ?_)) rfl,
      _, hothers, by rw [OrderedMap.ofList_entries]⟩
    all_goals simp [written]
  null _ hnull := by cases hnull

end ParameterMetadata

namespace ParameterDefinition

/-- Parameters are read again. -/
theorem survives : Survives decode encode :=
  .record (by decide) (fun _ => rfl) fun fs ws x h hws => by
    simp only [Option.bind_eq_bind, Option.pure_def, Option.bind_eq_some_iff,
      Option.some.injEq] at h ⊢
    obtain ⟨type, htype, value, hvalue, allowed, hallowed, metadata, hmetadata, rfl⟩ := h
    refine ⟨_, survives_text.required htype (hws _ _ ?_),
      _, survives_any.optional hvalue (hws _ _ ?_),
      _, survives_values.optional hallowed (hws _ _ ?_),
      _, ParameterMetadata.survives.optional hmetadata (hws _ _ ?_), rfl⟩
    all_goals simp

end ParameterDefinition

namespace ParameterValue

/-- Values of parameters are read again. -/
theorem survives : Survives decode encode :=
  .record (by decide) (fun _ => rfl) fun _ _ _ h hws =>
    survives_any.required h (hws _ _ (by simp))

end ParameterValue

/-! ### Policy definitions and sets of them -/

namespace PolicyDefinitionProperties

/-- The rule is left out only where it is null, as a rule that is missing. -/
theorem rule_written {ws : Fields Json} {name : String} {rule : Json}
    (h : ws.lookup name = if rule.isNull then none else some rule) :
    ws.lookup name = some rule ∨ ws.lookup name = none ∧ rule = .null := by
  cases rule with
  | null => exact .inr ⟨h, rfl⟩
  | _ => exact .inl h

/-- The properties of a policy definition are read again. -/
theorem survives : Survives decode encode :=
  .record (by decide) (fun _ => rfl) fun fs ws x h hws => by
    -- Reading goes from field to field. Each value that was read is what the written field gives
    -- back.
    simp only [Option.bind_eq_bind, Option.pure_def, Option.bind_eq_some_iff,
      Option.some.injEq] at h ⊢
    obtain ⟨name, hname, description, hdescription, type, htype, mode, hmode, version, hversion,
      metadata, hmetadata, parameters, hparameters, rule, hrule, rfl⟩ := h
    refine ⟨_, survives_text.optional hname (hws _ _ ?_),
      _, survives_text.optional hdescription (hws _ _ ?_),
      _, survives_text.optional htype (hws _ _ ?_),
      _, survives_text.optional hmode (hws _ _ ?_),
      _, survives_text.optional hversion (hws _ _ ?_),
      _, survives_any.optional hmetadata (hws _ _ ?_),
      _, ParameterDefinition.survives.mapUnlessEmpty hparameters (hws _ _ ?_),
      _, survives_any.withDefault hrule (rule_written (hws _ _ ?_)) rfl, rfl⟩
    all_goals simp

end PolicyDefinitionProperties

namespace PolicyDefinition

/-- Policy definitions are read again. -/
theorem survives : Survives decode encode :=
  .record (by decide) (fun _ => rfl) fun fs ws x h hws => by
    simp only [Option.bind_eq_bind, Option.pure_def, Option.bind_eq_some_iff,
      Option.some.injEq] at h ⊢
    obtain ⟨name, hname, id, hid, type, htype, properties, hproperties, rfl⟩ := h
    refine ⟨_, survives_text.required hname (hws _ _ ?_),
      _, survives_text.optional hid (hws _ _ ?_),
      _, survives_text.withDefault htype (.inl (hws _ _ ?_)) rfl,
      _, PolicyDefinitionProperties.survives.required hproperties (hws _ _ ?_), rfl⟩
    all_goals simp

end PolicyDefinition

namespace SetMember

/-- The members of a policy set definition are read again. -/
theorem survives : Survives decode encode :=
  .record (by decide) (fun _ => rfl) fun fs ws x h hws => by
    simp only [Option.bind_eq_bind, Option.pure_def, Option.bind_eq_some_iff,
      Option.some.injEq] at h ⊢
    obtain ⟨definition, hdefinition, reference, hreference, version, hversion, parameters,
      hparameters, groups, hgroups, rfl⟩ := h
    refine ⟨_, survives_text.required hdefinition (hws _ _ ?_),
      _, survives_text.optional hreference (hws _ _ ?_),
      _, survives_text.optional hversion (hws _ _ ?_),
      _, ParameterValue.survives.mapUnlessEmpty hparameters (hws _ _ ?_),
      _, survives_texts.optional hgroups (hws _ _ ?_), rfl⟩
    all_goals simp

end SetMember

namespace PolicySetDefinitionProperties

/-- The properties of a policy set definition are read again. -/
theorem survives : Survives decode encode :=
  .record (by decide) (fun _ => rfl) fun fs ws x h hws => by
    simp only [Option.bind_eq_bind, Option.pure_def, Option.bind_eq_some_iff,
      Option.some.injEq] at h ⊢
    -- Lists and maps that are empty were left out, and are read as empty where they are missing.
    obtain ⟨name, hname, description, hdescription, type, htype, version, hversion, metadata,
      hmetadata, parameters, hparameters, members, hmembers, groups, hgroups, rfl⟩ := h
    refine ⟨_, survives_text.optional hname (hws _ _ ?_),
      _, survives_text.optional hdescription (hws _ _ ?_),
      _, survives_text.optional htype (hws _ _ ?_),
      _, survives_text.optional hversion (hws _ _ ?_),
      _, survives_any.optional hmetadata (hws _ _ ?_),
      _, ParameterDefinition.survives.mapUnlessEmpty hparameters (hws _ _ ?_),
      _, SetMember.survives.list.withDefault hmembers (.inl (hws _ _ ?_)) rfl,
      _, survives_values.optional hgroups (hws _ _ ?_), rfl⟩
    all_goals simp

end PolicySetDefinitionProperties

namespace PolicySetDefinition

/-- Policy set definitions are read again. -/
theorem survives : Survives decode encode :=
  .record (by decide) (fun _ => rfl) fun fs ws x h hws => by
    simp only [Option.bind_eq_bind, Option.pure_def, Option.bind_eq_some_iff,
      Option.some.injEq] at h ⊢
    obtain ⟨name, hname, id, hid, type, htype, properties, hproperties, rfl⟩ := h
    refine ⟨_, survives_text.required hname (hws _ _ ?_),
      _, survives_text.optional hid (hws _ _ ?_),
      _, survives_text.withDefault htype (.inl (hws _ _ ?_)) rfl,
      _, PolicySetDefinitionProperties.survives.required hproperties (hws _ _ ?_), rfl⟩
    all_goals simp

end PolicySetDefinition

/-! ### Policy assignments -/

/-- Every mode is read under the name that it is written with. -/
theorem EnforcementMode.survives : Survives decode encode where
  again {d mode} _ := by cases mode <;> rfl
  null {d mode} _ hnull := by cases mode <;> cases hnull

/-- Every kind of identity is read under the name that it is written with. -/
theorem IdentityType.survives : Survives decode encode where
  again {d kind} _ := by cases kind <;> rfl
  null {d kind} _ hnull := by cases kind <;> cases hnull

namespace AssignmentIdentity

/-- The identity of an assignment is read again. -/
theorem survives : Survives decode encode :=
  .record (by decide) (fun _ => rfl) fun fs ws x h hws => by
    simp only [Option.bind_eq_bind, Option.pure_def, Option.bind_eq_some_iff,
      Option.some.injEq] at h ⊢
    obtain ⟨type, htype, users, husers, rfl⟩ := h
    refine ⟨_, IdentityType.survives.required htype (hws _ _ ?_),
      _, survives_any.mapUnlessEmpty husers (hws _ _ ?_), rfl⟩
    all_goals simp

end AssignmentIdentity

namespace NonComplianceMessage

/-- Messages of an assignment are read again. -/
theorem survives : Survives decode encode :=
  .record (by decide) (fun _ => rfl) fun fs ws x h hws => by
    simp only [Option.bind_eq_bind, Option.pure_def, Option.bind_eq_some_iff,
      Option.some.injEq] at h ⊢
    obtain ⟨message, hmessage, reference, hreference, rfl⟩ := h
    refine ⟨_, survives_text.required hmessage (hws _ _ ?_),
      _, survives_text.optional hreference (hws _ _ ?_), rfl⟩
    all_goals simp

end NonComplianceMessage

namespace PolicyAssignmentProperties

/-- The properties of an assignment are read again. -/
theorem survives : Survives decode encode :=
  .record (by decide) (fun _ => rfl) fun fs ws x h hws => by
    simp only [Option.bind_eq_bind, Option.pure_def, Option.bind_eq_some_iff,
      Option.some.injEq] at h ⊢
    -- The definition that is assigned must be there. All else may be missing or has a default.
    obtain ⟨name, hname, description, hdescription, definition, hdefinition, version, hversion,
      scope, hscope, notScopes, hnotScopes, parameters, hparameters, mode, hmode, metadata,
      hmetadata, messages, hmessages, selectors, hselectors, overrides, hoverrides, rfl⟩ := h
    refine ⟨_, survives_text.optional hname (hws _ _ ?_),
      _, survives_text.optional hdescription (hws _ _ ?_),
      _, survives_text.required hdefinition (hws _ _ ?_),
      _, survives_text.optional hversion (hws _ _ ?_),
      _, survives_text.optional hscope (hws _ _ ?_),
      _, survives_text.listUnlessEmpty hnotScopes (hws _ _ ?_),
      _, ParameterValue.survives.mapUnlessEmpty hparameters (hws _ _ ?_),
      _, EnforcementMode.survives.optional hmode (hws _ _ ?_),
      _, survives_any.optional hmetadata (hws _ _ ?_),
      _, NonComplianceMessage.survives.listUnlessEmpty hmessages (hws _ _ ?_),
      _, survives_any.listUnlessEmpty hselectors (hws _ _ ?_),
      _, survives_any.listUnlessEmpty hoverrides (hws _ _ ?_), rfl⟩
    all_goals simp

end PolicyAssignmentProperties

namespace PolicyAssignment

/-- Policy assignments are read again. -/
theorem survives : Survives decode encode :=
  .record (by decide) (fun _ => rfl) fun fs ws x h hws => by
    simp only [Option.bind_eq_bind, Option.pure_def, Option.bind_eq_some_iff,
      Option.some.injEq] at h ⊢
    obtain ⟨name, hname, id, hid, type, htype, location, hlocation, identity, hidentity, properties,
      hproperties, rfl⟩ := h
    refine ⟨_, survives_text.required hname (hws _ _ ?_),
      _, survives_text.optional hid (hws _ _ ?_),
      _, survives_text.withDefault htype (.inl (hws _ _ ?_)) rfl,
      _, survives_text.optional hlocation (hws _ _ ?_),
      _, AssignmentIdentity.survives.optional hidentity (hws _ _ ?_),
      _, PolicyAssignmentProperties.survives.required hproperties (hws _ _ ?_), rfl⟩
    all_goals simp

end PolicyAssignment

/-! ### Role definitions and grants -/

namespace Permission

/-- Permissions are read again. -/
theorem survives : Survives decode encode :=
  .record (by decide) (fun _ => rfl) fun fs ws x h hws => by
    simp only [Option.bind_eq_bind, Option.pure_def, Option.bind_eq_some_iff,
      Option.some.injEq] at h ⊢
    obtain ⟨actions, hactions, notActions, hnotActions, dataActions, hdataActions, notDataActions,
      hnotDataActions, rfl⟩ := h
    refine ⟨_, survives_texts.withDefault hactions (.inl (hws _ _ ?_)) rfl,
      _, survives_text.listUnlessEmpty hnotActions (hws _ _ ?_),
      _, survives_text.listUnlessEmpty hdataActions (hws _ _ ?_),
      _, survives_text.listUnlessEmpty hnotDataActions (hws _ _ ?_), rfl⟩
    all_goals simp

end Permission

namespace RoleDefinitionProperties

/-- The properties of a role definition are read again. -/
theorem survives : Survives decode encode :=
  .record (by decide) (fun _ => rfl) fun fs ws x h hws => by
    simp only [Option.bind_eq_bind, Option.pure_def, Option.bind_eq_some_iff,
      Option.some.injEq] at h ⊢
    obtain ⟨name, hname, description, hdescription, type, htype, permissions, hpermissions, scopes,
      hscopes, rfl⟩ := h
    refine ⟨_, survives_text.required hname (hws _ _ ?_),
      _, survives_text.optional hdescription (hws _ _ ?_),
      _, survives_text.optional htype (hws _ _ ?_),
      _, Permission.survives.list.withDefault hpermissions (.inl (hws _ _ ?_)) rfl,
      _, survives_texts.withDefault hscopes (.inl (hws _ _ ?_)) rfl, rfl⟩
    all_goals simp

end RoleDefinitionProperties

namespace RoleDefinition

/-- Role definitions are read again. -/
theorem survives : Survives decode encode :=
  .record (by decide) (fun _ => rfl) fun fs ws x h hws => by
    simp only [Option.bind_eq_bind, Option.pure_def, Option.bind_eq_some_iff,
      Option.some.injEq] at h ⊢
    obtain ⟨name, hname, id, hid, type, htype, properties, hproperties, rfl⟩ := h
    refine ⟨_, survives_text.required hname (hws _ _ ?_),
      _, survives_text.optional hid (hws _ _ ?_),
      _, survives_text.withDefault htype (.inl (hws _ _ ?_)) rfl,
      _, RoleDefinitionProperties.survives.required hproperties (hws _ _ ?_), rfl⟩
    all_goals simp

end RoleDefinition

namespace RoleGrant

/-- Grants are read again. -/
theorem survives : Survives decode encode :=
  .record (by decide) (fun _ => rfl) fun fs ws x h hws => by
    simp only [Option.bind_eq_bind, Option.pure_def, Option.bind_eq_some_iff,
      Option.some.injEq] at h ⊢
    obtain ⟨assignment, hassignment, role, hrole, scope, hscope, group, hgroup, rfl⟩ := h
    refine ⟨_, survives_text.required hassignment (hws _ _ ?_),
      _, survives_text.required hrole (hws _ _ ?_),
      _, survives_text.required hscope (hws _ _ ?_),
      _, survives_text.required hgroup (hws _ _ ?_), rfl⟩
    all_goals simp

end RoleGrant

/-! ### Archetypes -/

namespace Archetype

/-- Archetypes are read again. -/
theorem survives : Survives decode encode :=
  .record (by decide) (fun _ => rfl) fun fs ws x h hws => by
    simp only [Option.bind_eq_bind, Option.pure_def, Option.bind_eq_some_iff,
      Option.some.injEq] at h ⊢
    obtain ⟨name, hname, definitions, hdefinitions, sets, hsets, assignments, hassignments, roles,
      hroles, rfl⟩ := h
    refine ⟨_, survives_text.required hname (hws _ _ ?_),
      _, survives_textSet.withDefault hdefinitions (.inl (hws _ _ ?_)) rfl,
      _, survives_textSet.withDefault hsets (.inl (hws _ _ ?_)) rfl,
      _, survives_textSet.withDefault hassignments (.inl (hws _ _ ?_)) rfl,
      _, survives_textSet.withDefault hroles (.inl (hws _ _ ?_)) rfl, rfl⟩
    all_goals simp

end Archetype

namespace ArchetypeOverride

/-- The change to the names of one kind is read again from its two fields. -/
theorem decodeChange_again {fs ws : Fields Json} {kind : String} {c : NameChange}
    (h : decodeChange fs kind = some c)
    (hws : ∀ name v, (name, v) ∈ encodeChange kind c → ws.lookup name = v) :
    decodeChange ws kind = some c := by
  simp only [decodeChange, Option.bind_eq_bind, Option.pure_def, Option.bind_eq_some_iff,
    Option.some.injEq] at h ⊢
  obtain ⟨add, hadd, remove, hremove, rfl⟩ := h
  refine ⟨_, survives_textSet.withDefault hadd (.inl (hws _ _ ?_)) rfl,
    _, survives_textSet.withDefault hremove (.inl (hws _ _ ?_)) rfl, rfl⟩
  all_goals simp [encodeChange]

/-- Overrides of archetypes are read again. -/
theorem survives : Survives decode encode :=
  .record (by decide) (fun _ => rfl) fun fs ws x h hws => by
    simp only [Option.bind_eq_bind, Option.pure_def, Option.bind_eq_some_iff,
      Option.some.injEq] at h ⊢
    -- For each kind, the names that are added and those that are removed stand in two fields.
    obtain ⟨name, hname, base, hbase, definitions, hdefinitions, sets, hsets, assignments,
      hassignments, roles, hroles, rfl⟩ := h
    refine ⟨_, survives_text.required hname (hws _ _ ?_),
      _, survives_text.required hbase (hws _ _ ?_),
      _, decodeChange_again hdefinitions fun name v hv => hws name v ?_,
      _, decodeChange_again hsets fun name v hv => hws name v ?_,
      _, decodeChange_again hassignments fun name v hv => hws name v ?_,
      _, decodeChange_again hroles fun name v hv => hws name v ?_, rfl⟩
    all_goals simp_all [List.mem_append]

end ArchetypeOverride

/-! ### Views -/

namespace GroupView

/-- The parent is written as null where there is none, and null is read as none. -/
theorem parent_again {ws : Fields Json} {name : String} {parent : Option String}
    (h : ws.lookup name = some (ofText? parent)) : ws.optional name readText = some parent := by
  rw [Fields.optional, h]
  cases parent <;> rfl

/-- The view of a group is read again. -/
theorem survives : Survives decode encode :=
  .record (by decide) (fun _ => rfl) fun fs ws x h hws => by
    simp only [Option.bind_eq_bind, Option.pure_def, Option.bind_eq_some_iff,
      Option.some.injEq] at h ⊢
    -- A view leaves nothing out, so each of its fields is required. The field for the parent is the
    -- one that may hold null.
    obtain ⟨children, hchildren, name, hname, existing, hexisting, id, hid, level, hlevel, location,
      hlocation, parent, hparent, assignments, hassignments, definitions, hdefinitions, grants,
      hgrants, sets, hsets, roles, hroles, rfl⟩ := h
    refine ⟨_, survives_texts.required hchildren (hws _ _ ?_),
      _, survives_text.required hname (hws _ _ ?_),
      _, survives_bool.required hexisting (hws _ _ ?_),
      _, survives_text.required hid (hws _ _ ?_),
      _, survives_unsigned32.required hlevel (hws _ _ ?_),
      _, survives_text.required hlocation (hws _ _ ?_),
      _, parent_again (hws _ _ ?_),
      _, PolicyAssignment.survives.map.required hassignments (hws _ _ ?_),
      _, PolicyDefinition.survives.map.required hdefinitions (hws _ _ ?_),
      _, RoleGrant.survives.list.required hgrants (hws _ _ ?_),
      _, PolicySetDefinition.survives.map.required hsets (hws _ _ ?_),
      _, RoleDefinition.survives.map.required hroles (hws _ _ ?_), rfl⟩
    all_goals simp

end GroupView

namespace HierarchyView

/-- The view of a hierarchy is read again. -/
theorem survives : Survives decode encode :=
  .record (by decide) (fun _ => rfl) fun fs ws x h hws => by
    simp only [Option.bind_eq_bind, Option.pure_def, Option.bind_eq_some_iff,
      Option.some.injEq] at h ⊢
    obtain ⟨groups, hgroups, rfl⟩ := h
    exact ⟨_, GroupView.survives.map.required hgroups (hws _ _ (by simp)), rfl⟩

end HierarchyView

/-! ### Documents -/

/-- Every document of a library or a report that can be read, of whichever of the eight kinds, is
read again from what is written for it, and is then written the same way once more. -/
theorem assets_reread :
    Rereads PolicyDefinition.decode PolicyDefinition.encode ∧
    Rereads PolicySetDefinition.decode PolicySetDefinition.encode ∧
    Rereads PolicyAssignment.decode PolicyAssignment.encode ∧
    Rereads RoleDefinition.decode RoleDefinition.encode ∧
    Rereads Archetype.decode Archetype.encode ∧
    Rereads ArchetypeOverride.decode ArchetypeOverride.encode ∧
    Rereads GroupView.decode GroupView.encode ∧
    Rereads HierarchyView.decode HierarchyView.encode :=
  ⟨PolicyDefinition.survives.rereads, PolicySetDefinition.survives.rereads,
    PolicyAssignment.survives.rereads, RoleDefinition.survives.rereads,
    Archetype.survives.rereads, ArchetypeOverride.survives.rereads, GroupView.survives.rereads,
    HierarchyView.survives.rereads⟩

/-- A policy definition with a null in place of a text, a rule that is null, and metadata with a
member that has no field. -/
def Sample.document : Json := .object [
  ("properties", .object [
    ("policyRule", .null),
    ("parameters", .object [("effect", .object [
      ("metadata", .object [("strongType", .string "subnet"), ("assignPermissions", .bool true),
        ("displayName", .null)]),
      ("type", .string "String")])])]),
  ("id", .null),
  ("name", .string "deny")]

/-- The document is read, and what is written of it is read as the same definition. -/
theorem assets_reread_document : ∃ v, PolicyDefinition.decode Sample.document = some v ∧
    PolicyDefinition.decode v.encode = some v ∧
    (PolicyDefinition.decode v.encode).map PolicyDefinition.encode = some v.encode := by
  have hreads : (PolicyDefinition.decode Sample.document).isSome = true := by decide +kernel
  obtain ⟨v, hv⟩ := Option.isSome_iff_exists.mp hreads
  exact ⟨v, hv, assets_reread.1 _ v hv⟩

end Governance
