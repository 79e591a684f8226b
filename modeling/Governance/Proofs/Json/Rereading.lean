import Governance.Json.Record
import Governance.Proofs.Order.Map

/-!
# `Governance.Proofs.Json.Rereading`: values that survive being written

`Survives read write` says of a reader and a writer of one kind of value that whatever is read is
read again from what is written for it. The readers and writers of `Governance.Json.Record` have
this property, and it carries through lists, maps and records:

* `Survives.list`, `survives_textSet`, `Survives.map`: lists, sets and maps;
* `Survives.record`: a record, given that its fields are built again;
* `Survives.required`, `Survives.optional`, `Survives.withDefault`: a field of each sort, which
  goes missing when it is written only where reading puts back what it was.

The second half of `Survives` keeps null apart: a field that may be missing is also missing where
it is null, so what is there must not be written as null.
-/

set_option autoImplicit false

namespace Governance.Json

variable {α β : Type}

/-! ### Single values -/

/-- Whatever reading yields survives writing: it is read again from what was written, and only null
is written as null. -/
structure Survives (read : Json → Option α) (write : α → Json) : Prop where
  again : ∀ {d : Json} {x : α}, read d = some x → read (write x) = some x
  null : ∀ {d : Json} {x : α}, read d = some x → write x = .null → d = .null

/-- What was read is read again from what is written for it, and is then written the same way. -/
def Rereads (read : Json → Option α) (write : α → Json) : Prop :=
  ∀ (d : Json) (x : α), read d = some x →
    read (write x) = some x ∧ (read (write x)).map write = some (write x)

/-- What survives is read again and written the same way. -/
theorem Survives.rereads {read : Json → Option α} {write : α → Json} (h : Survives read write) :
    Rereads read write := by
  intro d x hd
  rw [h.again hd, Option.map_some]
  exact ⟨rfl, rfl⟩

/-- Texts survive. -/
theorem survives_text : Survives readText .string where
  again _ := rfl
  null _ h := by cases h

/-- Truth values survive. -/
theorem survives_bool : Survives readBool .bool where
  again _ := rfl
  null _ h := by cases h

/-- Every value survives as itself. -/
theorem survives_any : Survives readAny id where
  again _ := rfl
  null h hnull := by
    cases h
    exact hnull

/-- Small numbers survive. -/
theorem survives_unsigned32 : Survives readUnsigned32 ofNat where
  again {d n} h := by
    -- What was read is below the bound, and so it is when it is read again.
    have hbound : n < 1 <<< 32 := by
      cases d with
      | number x =>
        have hfilter : x.toUnsigned?.filter (· < 1 <<< 32) = some n := h
        exact of_decide_eq_true (Option.filter_eq_some_iff.mp hfilter).2
      | _ => cases h
    have hunsigned : (Number.integer n).toUnsigned? = some n := by simp [Number.toUnsigned?]
    change (Number.integer n).toUnsigned?.filter (· < 1 <<< 32) = some n
    rw [hunsigned, Option.filter_some, if_pos (decide_eq_true hbound)]
  null _ h := by cases h

/-! ### Lists and maps -/

/-- Every item that was read comes from some source. -/
theorem exists_of_mapM {read : β → Option α} {ds : List β} {xs : List α}
    (h : ds.mapM read = some xs) {x : α} (hx : x ∈ xs) : ∃ d ∈ ds, read d = some x := by
  induction ds generalizing xs with
  | nil =>
    cases h
    cases hx
  | cons d ds ih =>
    simp only [List.mapM_cons, Option.pure_def, Option.bind_eq_bind, Option.bind_eq_some_iff,
      Option.some.injEq] at h
    -- The first item comes from the first source, and the others from the others.
    obtain ⟨y, hy, rest, hrest, rfl⟩ := h
    rcases List.mem_cons.mp hx with rfl | hx
    · exact ⟨d, by simp, hy⟩
    · obtain ⟨d', hd', hread⟩ := ih hrest hx
      exact ⟨d', List.mem_cons_of_mem _ hd', hread⟩

/-- Items that are read back one by one are read back together. -/
theorem mapM_map_eq_some {read : β → Option α} {write : α → β} {xs : List α}
    (h : ∀ x ∈ xs, read (write x) = some x) : (xs.map write).mapM read = some xs := by
  induction xs with
  | nil => rfl
  | cons x xs ih =>
    rw [List.map_cons, List.mapM_cons, h x (by simp),
      ih fun y hy => h y (List.mem_cons_of_mem _ hy)]
    rfl

/-- Lists survive where their items do. -/
theorem Survives.list {read : Json → Option α} {write : α → Json} (h : Survives read write) :
    Survives (readList read) (ofList write) where
  again {d xs} hread := by
    cases d with
    | array ds =>
      refine mapM_map_eq_some fun x hx => ?_
      obtain ⟨d, -, hd⟩ := exists_of_mapM hread hx
      exact h.again hd
    | _ => cases hread
  null _ hnull := by cases hnull

/-- Values of any kind are written as they stand. -/
theorem survives_values : Survives (readList readAny) .array := by
  have hwrite : ofList id = Json.array := funext fun vs => by rw [ofList, List.map_id]
  exact hwrite ▸ survives_any.list

/-- Lists of texts survive. -/
theorem survives_texts : Survives (readList readText) ofTexts := survives_text.list

/-- Sets of texts survive. -/
theorem survives_textSet : Survives readTextSet ofTextSet where
  again {d s} _ := by
    have htexts : readList readText (ofTexts s.toList) = some s.toList :=
      mapM_map_eq_some fun _ _ => rfl
    rw [readTextSet, ofTextSet, htexts, Option.map_some, OrderedSet.ofList_toList]
  null _ hnull := by cases hnull

/-- Members whose values are read back are read back under the same names. -/
theorem readMembers_map {read : Json → Option α} {write : α → Json} {es : List (String × α)}
    (h : ∀ e ∈ es, read (write e.2) = some e.2) :
    readMembers read (es.map fun e => (e.1, write e.2)) = some es :=
  mapM_map_eq_some fun e he => by rw [h e he, Option.map_some]

/-- Every member that was read comes from a source under the same name. -/
theorem exists_of_readMembers {read : Json → Option α} {ds : List (String × Json)}
    {es : List (String × α)} (h : readMembers read ds = some es) {name : String} {x : α}
    (hx : (name, x) ∈ es) : ∃ d, (name, d) ∈ ds ∧ read d = some x := by
  obtain ⟨⟨name', d⟩, hd, hread⟩ := exists_of_mapM h hx
  obtain ⟨x', hx', heq⟩ := Option.map_eq_some_iff.mp hread
  obtain ⟨rfl, rfl⟩ := Prod.mk.inj heq
  exact ⟨d, hd, hx'⟩

/-- Maps survive where their values do. -/
theorem Survives.map {read : Json → Option α} {write : α → Json} (h : Survives read write) :
    Survives (readMap read) (ofMap write) where
  again {d m} hread := by
    cases d with
    | object members =>
      obtain ⟨es, hes, rfl⟩ := Option.map_eq_some_iff.mp hread
      -- Of several members with one name the last is kept, so an entry is still one of them.
      have hentry : ∀ e ∈ (OrderedMap.ofList es).entries, read (write e.2) = some e.2 := by
        intro e he
        obtain ⟨d, -, hd⟩ := exists_of_readMembers hes
          (OrderedMap.mem_of_get?_ofList (OrderedMap.get?_eq_some_iff.mpr he))
        exact h.again hd
      change (readMembers read _).map OrderedMap.ofList = _
      rw [readMembers_map hentry, Option.map_some, OrderedMap.ofList_entries]
    | _ => cases hread
  null _ hnull := by cases hnull

/-! ### Fields -/

/-- A record of different field names is read as the fields that it was written with. -/
theorem exists_fields (names : List String) {fields : List (String × Option Json)}
    (h : (fields.map Prod.fst).Nodup) :
    ∃ fs : Fields Json, readFields names (record fields) = some fs ∧
      ∀ name v, (name, v) ∈ fields → fs.lookup name = v := by
  refine ⟨_, if_pos (List.all_eq_true.mpr fun name _ => decide_eq_true ?_),
    fun name v hv => lookup_record h hv⟩
  calc List.countP (fun m => m.1 == name) (fields.filterMap fun f => f.2.map (f.1, ·))
      ≤ List.countP (fun f => f.1 == name) fields := by
        rw [List.countP_filterMap]
        exact List.countP_mono_left fun f _ hf => by cases hv : f.2 <;> simp_all
    _ = (fields.map Prod.fst).count name := by rw [List.count_eq_countP, List.countP_map]; rfl
    _ ≤ 1 := List.nodup_iff_count.mp h name

/-- A record survives when what its fields were read as is built again from the fields that are
written for it. -/
theorem Survives.record {names : List String} {build : Fields Json → Option α}
    {fields : α → List (String × Option Json)} (hnames : names.Nodup)
    (hfields : ∀ x, (fields x).map Prod.fst = names)
    (h : ∀ fs ws x, build fs = some x → (∀ name v, (name, v) ∈ fields x → ws.lookup name = v) →
      build ws = some x) :
    Survives (fun d => (readFields names d).bind build) fun x => Json.record (fields x) where
  again {d x} hd := by
    obtain ⟨fs, -, hfs⟩ := Option.bind_eq_some_iff.mp hd
    obtain ⟨ws, hread, hws⟩ := exists_fields names ((hfields x).symm ▸ hnames)
    exact Option.bind_eq_some_iff.mpr ⟨ws, hread, h fs ws x hfs hws⟩
  null _ hnull := by cases hnull

section Fields

variable {read : Json → Option α} {write : α → Json} {fs ws : Fields Json} {name : String}

/-- A required field that survives is read again. -/
theorem Survives.required (h : Survives read write) {x : α}
    (hfs : fs.required name read = some x) (hws : ws.lookup name = some (write x)) :
    ws.required name read = some x := by
  obtain ⟨d, -, hd⟩ := Option.bind_eq_some_iff.mp hfs
  rw [Fields.required, hws]
  exact h.again hd

/-- What is there is not null. -/
theorem exists_of_optional {x : α} (hfs : fs.optional name read = some (some x)) :
    ∃ d, read d = some x ∧ d ≠ .null := by
  rw [Fields.optional] at hfs
  split at hfs
  · cases hfs
  · next d _ =>
    refine ⟨d, ?_⟩
    cases d <;> simp_all [readOptional, Source.layer, topLayer]

/-- Anything but null is read as the value of the field. -/
theorem readOptional_of_ne {d : Json} (h : d ≠ .null) :
    readOptional read d = (read d).map some := by
  cases d with
  | null => exact absurd rfl h
  | _ => rfl

/-- An optional field that survives is read again, or is left out again. -/
theorem Survives.optional (h : Survives read write) {x : Option α}
    (hfs : fs.optional name read = some x) (hws : ws.lookup name = x.map write) :
    ws.optional name read = some x := by
  rw [Fields.optional, hws]
  cases x with
  | none => rfl
  | some x =>
    obtain ⟨d, hd, hne⟩ := exists_of_optional hfs
    change readOptional read (write x) = some (some x)
    rw [readOptional_of_ne fun hnull => hne (h.null hd hnull), h.again hd, Option.map_some]

/-- A field with a default is left out only where it has its default. -/
theorem Survives.withDefault (h : Survives read write) {missing x : α}
    (hfs : fs.withDefault name missing read = some x)
    (hws : ws.lookup name = some (write x) ∨ ws.lookup name = none ∧ x = missing)
    (hmissing : read (write missing) = some missing) :
    ws.withDefault name missing read = some x := by
  rcases hws with hws | ⟨hws, rfl⟩
  · rw [Fields.withDefault, hws]
    rw [Fields.withDefault] at hfs
    -- The default may have been written for a field that was left out.
    split at hfs
    · cases hfs
      exact hmissing
    · exact h.again hfs
  · rw [Fields.withDefault, hws]

/-- A list is read again where an empty one is left out. -/
theorem Survives.listUnlessEmpty (h : Survives read write) {xs : List α}
    (hfs : fs.withDefault name [] (readList read) = some xs)
    (hws : ws.lookup name = unlessEmpty write xs) :
    ws.withDefault name [] (readList read) = some xs := by
  refine h.list.withDefault hfs ?_ rfl
  cases xs with
  | nil => exact .inr ⟨hws, rfl⟩
  | cons x xs => exact .inl hws

/-- A map is read again where an empty one is left out. -/
theorem Survives.mapUnlessEmpty (h : Survives read write) {m : OrderedMap String α}
    (hfs : fs.withDefault name {} (readMap read) = some m)
    (hws : ws.lookup name = unlessEmptyMap write m) :
    ws.withDefault name {} (readMap read) = some m := by
  refine h.map.withDefault hfs ?_ rfl
  obtain ⟨entries, hascending⟩ := m
  cases entries with
  | nil => exact .inr ⟨hws, rfl⟩
  | cons e entries => exact .inl hws

end Fields

end Governance.Json
