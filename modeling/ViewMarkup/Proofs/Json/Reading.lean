/-
# Readings of values

A value that repeats no key is the reading of its text and nothing else: reading it
gives the value again, and whatever was read as the value is that reading. Where a
text repeats a key its reading says more than its value, which has only the last
mention.

Key definitions: `Reading.keysDistinct`, `keysDistinct`.
Key theorems: `member?_append`, `gather_eq_self`, `toJson_reading`,
`Reading.reading_of_toJson`.
-/
import Mathlib.Data.List.Nodup
import ViewMarkup.Json.Reading
import ViewMarkup.Outcome

namespace ViewMarkup.Json

variable {key : String} {v : Json}

/-! ### Members -/

/-- Where no key is repeated, none of the members before one has its key. -/
theorem not_mem_keys_before {α : Type} {before after : List (String × α)} {m : String × α}
    (h : ((before ++ m :: after).map Prod.fst).Nodup) : m.1 ∉ before.map Prod.fst := by
  rw [List.map_append, List.nodup_append] at h
  exact fun hmem => h.2.2 m.1 hmem m.1 List.mem_cons_self rfl

theorem member?_append (key : String) : ∀ before after : List (String × Json),
    member? key (before ++ after) = (member? key before).or (member? key after)
  | [], after => rfl
  | (k, v) :: before, after => by
    rw [List.cons_append, member?, member?, member?_append key before after]
    split <;> rfl

theorem member?_eq_none_iff : ∀ {members : List (String × Json)},
    member? key members = none ↔ key ∉ members.map Prod.fst
  | [] => by simp [member?]
  | (k, v) :: members => by
    rw [member?, List.map_cons, List.mem_cons, not_or]
    by_cases hk : k = key
    · simp [hk]
    · simp [hk, Ne.symm hk, member?_eq_none_iff]

theorem setMember_of_not_mem : ∀ {members : List (String × Json)}, key ∉ members.map Prod.fst →
    setMember key v members = members ++ [(key, v)]
  | [], _ => rfl
  | (k, w) :: members, h => by
    rw [List.map_cons, List.mem_cons, not_or] at h
    rw [setMember, if_neg (Ne.symm h.1), setMember_of_not_mem h.2, List.cons_append]

theorem foldl_setMember_of_nodup : ∀ {mentions members : List (String × Json)},
    ((members ++ mentions).map Prod.fst).Nodup →
      mentions.foldl (fun members m => setMember m.1 m.2 members) members = members ++ mentions
  | [], members, _ => (List.append_nil members).symm
  | (k, v) :: mentions, members, h => by
    have hk := not_mem_keys_before h
    rw [List.append_cons] at h ⊢
    rw [List.foldl_cons, setMember_of_not_mem hk, foldl_setMember_of_nodup h]

/-- Members that repeat no key are gathered as they are. -/
theorem gather_eq_self {members : List (String × Json)} (h : (members.map Prod.fst).Nodup) :
    gather members = members :=
  foldl_setMember_of_nodup h

/-! ### Keys -/

namespace Reading

mutual

/-- Whether no object in what was read repeats a key. -/
def keysDistinct : Reading → Bool
  | array items _ => itemsDistinct items
  | object members _ => (members.map Prod.fst).Nodup && membersDistinct members
  | tooDeep inner => inner.keysDistinct
  | _ => true
termination_by structural r => r

def itemsDistinct : List Reading → Bool
  | [] => true
  | r :: rest => r.keysDistinct && itemsDistinct rest
termination_by structural items => items

def membersDistinct : List (Option String × Reading) → Bool
  | [] => true
  | m :: rest => memberDistinct m && membersDistinct rest
termination_by structural members => members

def memberDistinct : Option String × Reading → Bool
  | (_, r) => r.keysDistinct
termination_by structural m => m

end

@[simp] theorem keysDistinct_object {members : List (Option String × Reading)}
    {fault : Option TextFault} : (object members fault).keysDistinct = true ↔
      (members.map Prod.fst).Nodup ∧ membersDistinct members = true := by
  rw [keysDistinct, Bool.and_eq_true, decide_eq_true_eq]

@[simp] theorem itemsDistinct_cons {r : Reading} {rest : List Reading} :
    itemsDistinct (r :: rest) = true ↔ r.keysDistinct = true ∧ itemsDistinct rest = true := by
  rw [itemsDistinct, Bool.and_eq_true]

@[simp] theorem membersDistinct_cons {m : Option String × Reading}
    {rest : List (Option String × Reading)} : membersDistinct (m :: rest) = true ↔
      memberDistinct m = true ∧ membersDistinct rest = true := by
  rw [membersDistinct, Bool.and_eq_true]

end Reading

/-- Whether no object in the value repeats a key. -/
def keysDistinct (v : Json) : Bool := v.reading.keysDistinct

theorem keys_memberReadings : ∀ members : List (String × Json),
    (memberReadings members).map Prod.fst = (members.map Prod.fst).map some
  | [] => rfl
  | (key, v) :: members => by
    rw [memberReadings, List.map_cons, keys_memberReadings members]
    rfl

theorem nodup_keys_memberReadings {members : List (String × Json)} :
    ((memberReadings members).map Prod.fst).Nodup ↔ (members.map Prod.fst).Nodup := by
  rw [keys_memberReadings]
  exact List.nodup_map_iff fun _ _ => Option.some.inj

theorem itemReadings_eq_map : ∀ items : List Json, itemReadings items = items.map reading
  | [] => rfl
  | v :: rest => by rw [itemReadings, List.map_cons, itemReadings_eq_map rest]

/-! ### From value to reading and back -/

open Reading (itemsDistinct membersDistinct memberDistinct)

mutual

/-- A value that repeats no key is the value of its reading. -/
theorem toJson_reading : ∀ {v : Json}, v.keysDistinct = true → v.reading.toJson = .ok v
  | null, _ | bool _, _ | number _, _ | string _, _ => rfl
  | array items, h => by
    rw [reading, Reading.toJson, toItems_itemReadings h]
    rfl
  | object members, h => by
    obtain ⟨hnodup, hmembers⟩ := Reading.keysDistinct_object.1 h
    rw [reading, Reading.toJson, toMembers_memberReadings hmembers]
    show Except.ok (object (gather members)) = .ok (object members)
    rw [gather_eq_self (nodup_keys_memberReadings.1 hnodup)]
termination_by structural v => v

theorem toItems_itemReadings : ∀ {items : List Json}, itemsDistinct (itemReadings items) = true →
    Reading.toItems (itemReadings items) = .ok items
  | [], _ => rfl
  | v :: rest, h => by
    obtain ⟨hv, hrest⟩ := Reading.itemsDistinct_cons.1 h
    rw [itemReadings, Reading.toItems, toJson_reading hv, toItems_itemReadings hrest]
    rfl
termination_by structural items => items

theorem toMembers_memberReadings : ∀ {members : List (String × Json)},
    membersDistinct (memberReadings members) = true →
      Reading.toMembers (memberReadings members) = .ok members
  | [], _ => rfl
  | m :: rest, h => by
    obtain ⟨hm, hrest⟩ := Reading.membersDistinct_cons.1 h
    rw [memberReadings, Reading.toMembers, toMember_memberReading hm,
      toMembers_memberReadings hrest]
    rfl
termination_by structural members => members

theorem toMember_memberReading : ∀ {m : String × Json}, memberDistinct (memberReading m) = true →
    Reading.toMember (memberReading m) = .ok m
  | (key, v), h => by
    rw [memberReading, Reading.toMember, toJson_reading h]
    rfl
termination_by structural m => m

end

namespace Reading

theorem require_eq_ok_iff {α : Type} {o : Option α} {a : α} : require o = .ok a ↔ o = some a := by
  cases o <;> simp [require]

theorem stop_eq_ok_iff {fault : Option TextFault} {u : Unit} :
    stop fault = .ok u ↔ fault = none := by
  cases fault <;> simp [stop]

mutual

/-- What was read as a value without repeated keys is the reading of that value. -/
theorem reading_of_toJson : ∀ {r : Reading} {v : Json}, r.toJson = .ok v → r.keysDistinct = true →
    v.reading = r
  | null, _, h, _ | bool _, _, h, _ => by
    cases h
    rfl
  | number n, _, h, _ => by
    obtain ⟨n, hn, rfl⟩ := map_eq_ok_iff.1 h
    rw [require_eq_ok_iff.1 hn]
    rfl
  | string s, _, h, _ => by
    obtain ⟨s, hs, rfl⟩ := map_eq_ok_iff.1 h
    rw [require_eq_ok_iff.1 hs]
    rfl
  | array items fault, _, h, hkeys => by
    rw [toJson] at h
    obtain ⟨vs, hvs, h⟩ := bind_eq_ok_iff.1 h
    obtain ⟨_, hstop, h⟩ := bind_eq_ok_iff.1 h
    cases h
    rw [reading, itemReadings_of_toItems hvs hkeys, stop_eq_ok_iff.1 hstop]
  | object members fault, _, h, hkeys => by
    obtain ⟨hkeys, hmembers⟩ := keysDistinct_object.1 hkeys
    rw [toJson] at h
    obtain ⟨ms, hms, h⟩ := bind_eq_ok_iff.1 h
    obtain ⟨_, hstop, h⟩ := bind_eq_ok_iff.1 h
    cases h
    have heq := memberReadings_of_toMembers hms hmembers
    have hnodup : (ms.map Prod.fst).Nodup := by
      rwa [← nodup_keys_memberReadings, heq]
    rw [gather_eq_self hnodup, reading, heq, stop_eq_ok_iff.1 hstop]
  | tooDeep _, _, h, _ | broken _, _, h, _ => by cases h
termination_by structural r => r

theorem itemReadings_of_toItems : ∀ {items : List Reading} {vs : List Json},
    toItems items = .ok vs → itemsDistinct items = true → itemReadings vs = items
  | [], _, h, _ => by
    cases h
    rfl
  | r :: rest, _, h, hkeys => by
    obtain ⟨hr, hrest⟩ := itemsDistinct_cons.1 hkeys
    rw [toItems] at h
    obtain ⟨v, hv, h⟩ := bind_eq_ok_iff.1 h
    obtain ⟨vs, hvs, h⟩ := bind_eq_ok_iff.1 h
    cases h
    rw [itemReadings, reading_of_toJson hv hr, itemReadings_of_toItems hvs hrest]
termination_by structural items => items

theorem memberReadings_of_toMembers : ∀ {members : List (Option String × Reading)}
    {ms : List (String × Json)}, toMembers members = .ok ms → membersDistinct members = true →
      memberReadings ms = members
  | [], _, h, _ => by
    cases h
    rfl
  | m :: rest, _, h, hkeys => by
    obtain ⟨hm, hrest⟩ := membersDistinct_cons.1 hkeys
    rw [toMembers] at h
    obtain ⟨v, hv, h⟩ := bind_eq_ok_iff.1 h
    obtain ⟨vs, hvs, h⟩ := bind_eq_ok_iff.1 h
    cases h
    rw [memberReadings, memberReading_of_toMember hv hm, memberReadings_of_toMembers hvs hrest]
termination_by structural members => members

theorem memberReading_of_toMember : ∀ {m : Option String × Reading} {entry : String × Json},
    toMember m = .ok entry → memberDistinct m = true → memberReading entry = m
  | (key, r), _, h, hkeys => by
    obtain ⟨k, hk, h⟩ := bind_eq_ok_iff.1 h
    obtain ⟨v, hv, h⟩ := bind_eq_ok_iff.1 h
    cases h
    rw [memberReading, reading_of_toJson hv hkeys, require_eq_ok_iff.1 hk]
termination_by structural m => m

end

end Reading

end ViewMarkup.Json
