/-
# Reading from different sources

A source presents a value if to every request it gives what the value has, and
nothing where the value has nothing; and if its items and members present those
of the value. What it says where it has not got what was asked for is its own
affair, and so is when it says so.

Two sources that present one value are read as the same document, or both are
refused (`Document.ofSource_agree`). So whatever reads texts and whatever reads
values, if only each of them presents what it reads, a text is read as the same
document as its value (`Document.readText_agrees`). The two readers that there
are do so.

Key definitions: `Json.PresentedBy`, `Json.ReadsTexts`, `Json.ReadsValues`,
`Agree`, `Source.SameValue`.
Key theorems: `Node.ofSource_agree`, `ConstraintSpec.ofSource_agree`,
`Document.ofSource_agree`, `Json.presentedBy_source`,
`Json.textSource_readsTexts`, `Document.readText_agrees`.
-/
import Mathlib.Data.List.Forall2
import ViewMarkup.Document.Reading
import ViewMarkup.Proofs.Json.Reading

namespace ViewMarkup

/-! ### What sources present -/

namespace Json

mutual

/-- The source gives what the value has, to every request, and so does what is inside. -/
def PresentedBy : Json → Source → Prop
  | array vs, s => (∀ q, (s.answer q).toOption = (array vs).answer? q) ∧ AllPresentedBy vs s.items
  | object ms, s =>
    (∀ q, (s.answer q).toOption = (object ms).answer? q) ∧ MembersPresentedBy ms s.members
  | v, s => ∀ q, (s.answer q).toOption = v.answer? q
termination_by structural v => v

def AllPresentedBy : List Json → List Source → Prop
  | [], ss => ss = []
  | v :: vs, ss => ∃ s rest, ss = s :: rest ∧ v.PresentedBy s ∧ AllPresentedBy vs rest
termination_by structural vs => vs

def MembersPresentedBy :
    List (String × Json) → List (Except DocumentFault String × Source) → Prop
  | [], ss => ss = []
  | m :: ms, ss => ∃ s rest, ss = s :: rest ∧ MemberPresentedBy m s ∧ MembersPresentedBy ms rest
termination_by structural ms => ms

def MemberPresentedBy : String × Json → Except DocumentFault String × Source → Prop
  | (key, v), s => s.1 = .ok key ∧ v.PresentedBy s.2
termination_by structural m => m

end

/-- Values are read so that they are presented. -/
def ReadsValues (source : Json → Source) : Prop :=
  ∀ v : Json, v.keysDistinct = true → v.PresentedBy (source v)

/-- Texts are read so that their values are presented, where there is a value and no
object repeats a key; and nothing is found after it. -/
def ReadsTexts (source : String → Source × Except DocumentFault Unit) : Prop :=
  ∀ (text : String) (v : Json), ofText text = .ok v →
    (Reading.ofText text).value.keysDistinct = true →
    v.PresentedBy (source text).1 ∧ (source text).2 = .ok ()

theorem PresentedBy.answer_eq : ∀ {v : Json} {s : Source}, v.PresentedBy s →
    ∀ q, (s.answer q).toOption = v.answer? q
  | array _, _, h | object _, _, h => h.1
  | null, _, h | bool _, _, h | number _, _, h | string _, _, h => h

end Json

/-! ### Outcomes that agree -/

/-- Both succeed and give the same, or both fail. -/
def Agree {ε α : Type} (x y : Except ε α) : Prop := x.toOption = y.toOption

namespace Agree

variable {ε α β σ : Type} {x y : Except ε α}

theorem refl (x : Except ε α) : Agree x x := rfl

theorem ok_iff (h : Agree x y) (a : α) : x = .ok a ↔ y = .ok a := by
  rw [← toOption_eq_some_iff, ← toOption_eq_some_iff, show x.toOption = y.toOption from h]

theorem error_iff (h : Agree x y) : (∃ e, x = .error e) ↔ ∃ e, y = .error e := by
  cases x <;> cases y <;> cases h <;> simp

theorem bind {f g : α → Except ε β} (h : Agree x y) (hf : ∀ a, x = .ok a → Agree (f a) (g a)) :
    Agree (x >>= f) (y >>= g) := by
  cases x with
  | error =>
    cases y with
    | error => rfl
    | ok => cases h
  | ok a =>
    obtain rfl := (h.ok_iff a).1 rfl
    exact hf a rfl

/-- Where the first step fails on both sides, what comes next does not matter. -/
theorem bind_of_none {f g : α → Except ε β} (hx : x.toOption = none) (hy : y.toOption = none) :
    Agree (x >>= f) (y >>= g) := by
  cases x with
  | ok => cases hx
  | error =>
    cases y with
    | ok => cases hy
    | error => rfl

theorem mapM {S : Type} {R : S → S → Prop} {f : S → Except ε α}
    (hf : ∀ s t, R s t → Agree (f s) (f t)) :
    ∀ {ss ts : List S}, List.Forall₂ R ss ts → Agree (ss.mapM f) (ts.mapM f)
  | [], [], .nil => .refl _
  | s :: ss, t :: ts, .cons h hs => by
    rw [List.mapM_cons, List.mapM_cons]
    exact (hf s t h).bind fun _ _ => (mapM hf hs).bind fun _ _ => .refl _

theorem foldlM {S : Type} {R : S → S → Prop} {f : σ → S → Except ε σ}
    (hf : ∀ a s t, R s t → Agree (f a s) (f a t)) :
    ∀ {ss ts : List S}, List.Forall₂ R ss ts → ∀ a, Agree (ss.foldlM f a) (ts.foldlM f a)
  | [], [], .nil, _ => .refl _
  | s :: ss, t :: ts, .cons h hs, a => by
    rw [List.foldlM_cons, List.foldlM_cons]
    exact (hf a s t h).bind fun a _ => foldlM hf hs a

end Agree

/-! ### Sources of one value -/

namespace Source

/-- Both present one value. -/
def SameValue (s t : Source) : Prop := ∃ v : Json, v.PresentedBy s ∧ v.PresentedBy t

/-- Members of one key, with sources of one value. -/
def SameMember (m n : Except DocumentFault String × Source) : Prop :=
  ∃ key, m.1 = .ok key ∧ n.1 = .ok key ∧ m.2.SameValue n.2

theorem sameValue_of_allPresentedBy : ∀ {vs : List Json} {ss ts : List Source},
    Json.AllPresentedBy vs ss → Json.AllPresentedBy vs ts → List.Forall₂ SameValue ss ts
  | [], _, _, hs, ht => by
    cases hs
    cases ht
    exact .nil
  | v :: _, _, _, hs, ht => by
    obtain ⟨s, ss, rfl, hs, hss⟩ := hs
    obtain ⟨t, ts, rfl, ht, hts⟩ := ht
    exact .cons ⟨v, hs, ht⟩ (sameValue_of_allPresentedBy hss hts)

theorem sameMember_of_membersPresentedBy : ∀ {ms : List (String × Json)}
    {ss ts : List (Except DocumentFault String × Source)}, Json.MembersPresentedBy ms ss →
    Json.MembersPresentedBy ms ts → List.Forall₂ SameMember ss ts
  | [], _, _, hs, ht => by
    cases hs
    cases ht
    exact .nil
  | (key, v) :: _, _, _, hs, ht => by
    obtain ⟨s, ss, rfl, hs, hss⟩ := hs
    obtain ⟨t, ts, rfl, ht, hts⟩ := ht
    exact .cons ⟨key, hs.1, ht.1, v, hs.2, ht.2⟩ (sameMember_of_membersPresentedBy hss hts)

namespace SameValue

variable {s t : Source}

theorem answer (h : s.SameValue t) (q : Request) : Agree (s.answer q) (t.answer q) := by
  obtain ⟨v, hs, ht⟩ := h
  exact (hs.answer_eq q).trans (ht.answer_eq q).symm

/-- The items of a list. -/
theorem items (h : s.SameValue t) (hlist : s.answer .list = .ok ()) :
    List.Forall₂ SameValue s.items t.items := by
  obtain ⟨v, hs, ht⟩ := h
  have hv := hs.answer_eq .list
  rw [hlist] at hv
  cases v with
  | array vs => exact sameValue_of_allPresentedBy hs.2 ht.2
  | _ => cases hv

/-- The items of a record that is given in order. -/
theorem items_of_record {expected : String} (h : s.SameValue t)
    (hrecord : s.answer (.record expected) = .ok .items) :
    List.Forall₂ SameValue s.items t.items := by
  obtain ⟨v, hs, ht⟩ := h
  have hv := hs.answer_eq (.record expected)
  rw [hrecord] at hv
  cases v with
  | array vs => exact sameValue_of_allPresentedBy hs.2 ht.2
  | _ => cases hv

theorem members {expected : String} (h : s.SameValue t)
    (hmembers : s.answer (.members expected) = .ok ()) :
    List.Forall₂ SameMember s.members t.members := by
  obtain ⟨v, hs, ht⟩ := h
  have hv := hs.answer_eq (.members expected)
  rw [hmembers] at hv
  cases v with
  | object ms => exact sameMember_of_membersPresentedBy hs.2 ht.2
  | _ => cases hv

/-- The members of a record that is given by name. -/
theorem members_of_record {expected : String} (h : s.SameValue t)
    (hrecord : s.answer (.record expected) = .ok .members) :
    List.Forall₂ SameMember s.members t.members := by
  obtain ⟨v, hs, ht⟩ := h
  have hv := hs.answer_eq (.record expected)
  rw [hrecord] at hv
  cases v with
  | object ms => exact sameMember_of_membersPresentedBy hs.2 ht.2
  | _ => cases hv

theorem asString (h : s.SameValue t) : Agree s.asString t.asString := h.answer .string

theorem asOptionalString (h : s.SameValue t) : Agree s.asOptionalString t.asOptionalString := by
  refine (h.answer .given).bind fun given _ => ?_
  cases given with
  | false => exact .refl _
  | true => exact h.asString.bind fun _ _ => .refl _

theorem asList {α : Type} {item : Source → Except DocumentFault α} (h : s.SameValue t)
    (hitem : ∀ s t : Source, s.SameValue t → Agree (item s) (item t)) :
    Agree (s.asList item) (t.asList item) := by
  refine (h.answer .list).bind fun _ hlist => ?_
  have hitems := h.items hlist
  refine (Agree.mapM hitem hitems).bind fun _ _ => ?_
  rw [hitems.length_eq]
  exact (h.answer _).bind fun _ _ => .refl _

theorem asNumbers (h : s.SameValue t) : Agree s.asNumbers t.asNumbers := by
  refine (h.answer _).bind fun _ hanswer => ?_
  have hmembers := h.members hanswer
  refine (Agree.foldlM (fun numbers m n hm => ?_) hmembers []).bind fun _ _ => ?_
  · obtain ⟨key, hm, hn, hvalue⟩ := hm
    refine Agree.bind (by rw [hm, hn]; exact .refl _) fun name _ => ?_
    exact (hvalue.answer .number).bind fun _ _ => .refl _
  · rw [hmembers.length_eq]
    exact (h.answer _).bind fun _ _ => .refl _

end SameValue

end Source

/-! ### Nodes -/

namespace Node

open Source

theorem ofSource_eq (s : Source) : ofSource s = (do
    s.answer (.members "struct Node")
    let fields ← readFields s.members {}
    s.answer (.ended s.members.length)
    ofFields fields) := by
  cases s
  rw [ofSource]
  rfl

theorem readChildren_eq (s : Source) : readChildren s = (do
    s.answer .list
    let nodes ← readAll s.items
    s.answer (.ended s.items.length)
    return nodes) := by
  cases s
  rw [readChildren]
  rfl

mutual

theorem ofSource_agree : ∀ {v : Json} {s t : Source}, v.PresentedBy s → v.PresentedBy t →
    Agree (ofSource s) (ofSource t)
  | .object ms, s, t, hs, ht => by
    have hsame : s.SameValue t := ⟨.object ms, hs, ht⟩
    rw [ofSource_eq, ofSource_eq, (sameMember_of_membersPresentedBy hs.2 ht.2).length_eq]
    refine (hsame.answer _).bind fun _ _ => ?_
    refine (readFields_agree hs.2 ht.2 {}).bind fun fields _ => ?_
    exact (hsame.answer _).bind fun _ _ => .refl _
  | .array _, _, _, hs, ht | .null, _, _, hs, ht | .bool _, _, _, hs, ht
  | .number _, _, _, hs, ht | .string _, _, _, hs, ht => by
    rw [ofSource_eq, ofSource_eq]
    exact .bind_of_none (hs.answer_eq _) (ht.answer_eq _)
termination_by structural v => v

theorem readFields_agree : ∀ {ms : List (String × Json)}
    {ss ts : List (Except DocumentFault String × Source)}, Json.MembersPresentedBy ms ss →
    Json.MembersPresentedBy ms ts → ∀ fields, Agree (readFields ss fields) (readFields ts fields)
  | [], _, _, hs, ht, _ => by
    cases hs
    cases ht
    exact .refl _
  | m :: ms, _, _, hs, ht, fields => by
    obtain ⟨s, ss, rfl, hs, hss⟩ := hs
    obtain ⟨t, ts, rfl, ht, hts⟩ := ht
    rw [readFields, readFields]
    exact (readField_agree hs ht fields).bind fun fields _ => readFields_agree hss hts fields
termination_by structural ms => ms

theorem readField_agree : ∀ {m : String × Json} {s t : Except DocumentFault String × Source},
    Json.MemberPresentedBy m s → Json.MemberPresentedBy m t →
      ∀ fields, Agree (readField s fields) (readField t fields)
  | (key, v), (_, s), (_, t), ⟨rfl, hs⟩, ⟨rfl, ht⟩, fields => by
    have hsame : s.SameValue t := ⟨v, hs, ht⟩
    have hchildren := readChildren_agree hs ht
    rw [readField, readField]
    split
    · exact Agree.bind (.refl _) fun _ _ => hsame.asString.bind fun _ _ => .refl _
    · split
      · exact Agree.bind (.refl _) fun _ _ => hsame.asOptionalString.bind fun _ _ => .refl _
      · split
        · exact Agree.bind (.refl _) fun _ _ => hchildren.bind fun _ _ => .refl _
        · exact (hsame.answer .value).bind fun _ _ => .refl _
termination_by structural m => m

theorem readChildren_agree : ∀ {v : Json} {s t : Source}, v.PresentedBy s → v.PresentedBy t →
    Agree (readChildren s) (readChildren t)
  | .array vs, s, t, hs, ht => by
    have hsame : s.SameValue t := ⟨.array vs, hs, ht⟩
    rw [readChildren_eq, readChildren_eq, (sameValue_of_allPresentedBy hs.2 ht.2).length_eq]
    refine (hsame.answer _).bind fun _ _ => (readAll_agree hs.2 ht.2).bind fun _ _ => ?_
    exact (hsame.answer _).bind fun _ _ => .refl _
  | .object _, _, _, hs, ht | .null, _, _, hs, ht | .bool _, _, _, hs, ht
  | .number _, _, _, hs, ht | .string _, _, _, hs, ht => by
    rw [readChildren_eq, readChildren_eq]
    exact .bind_of_none (hs.answer_eq _) (ht.answer_eq _)
termination_by structural v => v

theorem readAll_agree : ∀ {vs : List Json} {ss ts : List Source}, Json.AllPresentedBy vs ss →
    Json.AllPresentedBy vs ts → Agree (readAll ss) (readAll ts)
  | [], _, _, hs, ht => by
    cases hs
    cases ht
    exact .refl _
  | v :: vs, _, _, hs, ht => by
    obtain ⟨s, ss, rfl, hs, hss⟩ := hs
    obtain ⟨t, ts, rfl, ht, hts⟩ := ht
    rw [readAll, readAll]
    exact (ofSource_agree hs ht).bind fun _ _ => (readAll_agree hss hts).bind fun _ _ => .refl _
termination_by structural vs => vs

end

end Node

/-! ### Constraint specs -/

namespace ConstraintSpec

open Source

variable {s t : Source}

theorem readOptions_agree (h : s.SameValue t) : Agree (readOptions s) (readOptions t) :=
  h.asList fun _ _ h => h.asString

theorem readField_agree (fields : Fields) (m n : Except DocumentFault String × Source)
    (h : SameMember m n) : Agree (readField fields m) (readField fields n) := by
  obtain ⟨_, s⟩ := m
  obtain ⟨_, t⟩ := n
  obtain ⟨key, rfl, rfl, hsame⟩ := h
  rw [readField, readField]
  split
  · exact Agree.bind (.refl _) fun _ _ => hsame.asString.bind fun _ _ => .refl _
  · split
    · exact Agree.bind (.refl _) fun _ _ => (readOptions_agree hsame).bind fun _ _ => .refl _
    · split
      · exact Agree.bind (.refl _) fun _ _ => hsame.asNumbers.bind fun _ _ => .refl _
      · exact .refl _

theorem ofItems_agree {ended ended' : Except DocumentFault Unit} (hended : Agree ended ended') :
    ∀ {ss ts : List Source}, List.Forall₂ SameValue ss ts →
      Agree (ofItems ended ss) (ofItems ended' ts)
  | [], [], .nil => hended.bind fun _ _ => .refl _
  | [_], [_], .cons hformat .nil => hformat.asString.bind fun _ _ => .refl _
  | [_, _], [_, _], .cons hformat (.cons hoptions .nil) =>
    hformat.asString.bind fun _ _ => (readOptions_agree hoptions).bind fun _ _ => .refl _
  | _ :: _ :: _ :: _, _ :: _ :: _ :: _, .cons hformat (.cons hoptions (.cons hmetrics _)) =>
    hformat.asString.bind fun _ _ => (readOptions_agree hoptions).bind fun _ _ =>
      hmetrics.asNumbers.bind fun _ _ => .refl _

theorem ofSource_agree (h : s.SameValue t) : Agree (ofSource s) (ofSource t) := by
  refine (h.answer _).bind fun form hform => ?_
  cases form with
  | members =>
    have hmembers := h.members_of_record hform
    refine (Agree.foldlM readField_agree hmembers {}).bind fun fields _ => ?_
    rw [hmembers.length_eq]
    exact (h.answer _).bind fun _ _ => .refl _
  | items =>
    refine (ofItems_agree (h.answer _) (h.items_of_record hform)).bind fun spec _ => ?_
    exact (h.answer _).bind fun _ _ => .refl _

end ConstraintSpec

/-! ### Documents -/

namespace Document

open Source

variable {s t : Source}

theorem readField_agree (fields : Fields) (m n : Except DocumentFault String × Source)
    (h : SameMember m n) : Agree (readField fields m) (readField fields n) := by
  obtain ⟨_, s⟩ := m
  obtain ⟨_, t⟩ := n
  obtain ⟨key, rfl, rfl, hsame⟩ := h
  obtain ⟨v, hs, ht⟩ := id hsame
  have hchildren := Node.readChildren_agree hs ht
  have hconstraints : Agree (readConstraints s) (readConstraints t) :=
    hsame.asList fun _ _ => ConstraintSpec.ofSource_agree
  rw [readField, readField]
  split
  · exact Agree.bind (.refl _) fun _ _ => hchildren.bind fun _ _ => .refl _
  · split
    · exact Agree.bind (.refl _) fun _ _ => hconstraints.bind fun _ _ => .refl _
    · exact (hsame.answer .skip).bind fun _ _ => .refl _

theorem ofItems_agree : ∀ {ss ts : List Source}, List.Forall₂ SameValue ss ts →
    Agree (ofItems ss) (ofItems ts)
  | [], [], .nil => .refl _
  | [_], [_], .cons ⟨_, hs, ht⟩ .nil => (Node.readChildren_agree hs ht).bind fun _ _ => .refl _
  | _ :: _ :: _, _ :: _ :: _, .cons ⟨_, hs, ht⟩ (.cons hconstraints _) =>
    (Node.readChildren_agree hs ht).bind fun _ _ =>
      (hconstraints.asList fun _ _ => ConstraintSpec.ofSource_agree).bind fun _ _ => .refl _

/-- Sources of one value are read as the same document, or both are refused. -/
theorem ofSource_agree (h : s.SameValue t) : Agree (ofSource s) (ofSource t) := by
  refine (h.answer _).bind fun form hform => ?_
  cases form with
  | members =>
    have hmembers := h.members_of_record hform
    refine (Agree.foldlM readField_agree hmembers {}).bind fun fields _ => ?_
    rw [hmembers.length_eq]
    exact (h.answer _).bind fun _ _ => .refl _
  | items =>
    refine (ofItems_agree (h.items_of_record hform)).bind fun doc _ => ?_
    exact (h.answer _).bind fun _ _ => .refl _

end Document

/-! ### The reader of values -/

namespace Json

theorem toOption_answer (v : Json) (q : Request) : (v.answer q).toOption = v.answer? q := by
  unfold answer
  cases v.answer? q <;> rfl

mutual

theorem presentedBy_source : ∀ v : Json, v.PresentedBy v.source
  | array vs => ⟨toOption_answer (array vs), allPresentedBy_itemSources vs⟩
  | object ms => ⟨toOption_answer (object ms), membersPresentedBy_memberSources ms⟩
  | null => toOption_answer null
  | bool b => toOption_answer (bool b)
  | number n => toOption_answer (number n)
  | string s => toOption_answer (string s)
termination_by structural v => v

theorem allPresentedBy_itemSources : ∀ vs : List Json, AllPresentedBy vs (itemSources vs)
  | [] => rfl
  | v :: vs => ⟨_, _, rfl, presentedBy_source v, allPresentedBy_itemSources vs⟩
termination_by structural vs => vs

theorem membersPresentedBy_memberSources :
    ∀ ms : List (String × Json), MembersPresentedBy ms (memberSources ms)
  | [] => rfl
  | m :: ms => ⟨_, _, rfl, memberPresentedBy_memberSource m, membersPresentedBy_memberSources ms⟩
termination_by structural ms => ms

theorem memberPresentedBy_memberSource :
    ∀ m : String × Json, MemberPresentedBy m (memberSource m)
  | (_, v) => ⟨rfl, presentedBy_source v⟩
termination_by structural m => m

end

theorem source_readsValues : ReadsValues source := fun v _ => presentedBy_source v

/-! ### The reader of texts -/

mutual

/-- There is nothing wrong with the reading of a value. -/
theorem fault?_reading : ∀ v : Json, v.reading.fault? = none
  | null | bool _ | number _ | string _ => rfl
  | array vs => by rw [reading, Reading.fault?, itemsFault?_itemReadings vs, Option.or_none]
  | object ms => by rw [reading, Reading.fault?, membersFault?_memberReadings ms, Option.or_none]
termination_by structural v => v

theorem itemsFault?_itemReadings : ∀ vs : List Json,
    Reading.itemsFault? (itemReadings vs) = none
  | [] => rfl
  | v :: vs => by
    rw [itemReadings, Reading.itemsFault?, fault?_reading v, itemsFault?_itemReadings vs,
      Option.or_none]
termination_by structural vs => vs

theorem membersFault?_memberReadings : ∀ ms : List (String × Json),
    Reading.membersFault? (memberReadings ms) = none
  | [] => rfl
  | m :: ms => by
    rw [memberReadings, Reading.membersFault?, memberFault?_memberReading m,
      membersFault?_memberReadings ms, Option.or_none]
termination_by structural ms => ms

theorem memberFault?_memberReading : ∀ m : String × Json,
    Reading.memberFault? (memberReading m) = none
  | (_, v) => fault?_reading v
termination_by structural m => m

end

theorem length_memberReadings (ms : List (String × Json)) :
    (memberReadings ms).length = ms.length := by
  have hkeys := congrArg List.length (keys_memberReadings ms)
  simpa only [List.length_map] using hkeys

/-- The reading of a value answers as the value does. -/
theorem toOption_answer_reading {v : Json} (hkeys : v.keysDistinct = true) (q : Request) :
    (v.reading.answer q).toOption = v.answer? q := by
  cases q with
  | value =>
    have hvalue : v.answer? .value = some v := by cases v <;> rfl
    rw [hvalue, Reading.answer, toJson_reading hkeys]
    rfl
  | skip =>
    have hskip : v.answer? .skip = some () := by cases v <;> rfl
    rw [hskip, Reading.answer, fault?_reading v]
    rfl
  | ended taken =>
    cases v with
    | array vs =>
      simp only [reading, Reading.answer, answer?, itemReadings_eq_map, List.length_map]
      split <;> rfl
    | object ms =>
      simp only [reading, Reading.answer, answer?, length_memberReadings]
      split <;> rfl
    | _ => rfl
  | _ => cases v <;> rfl

mutual

/-- The reading of a value that repeats no key presents the value. -/
theorem presentedBy_reading : ∀ {v : Json}, v.keysDistinct = true → v.PresentedBy v.reading.source
  | array _, h => ⟨toOption_answer_reading h, allPresentedBy_itemReadings h⟩
  | object _, h =>
    ⟨toOption_answer_reading h,
      membersPresentedBy_memberReadings (Reading.keysDistinct_object.1 h).2⟩
  | null, h => toOption_answer_reading h
  | bool _, h => toOption_answer_reading h
  | number _, h => toOption_answer_reading h
  | string _, h => toOption_answer_reading h
termination_by structural v => v

theorem allPresentedBy_itemReadings : ∀ {vs : List Json},
    Reading.itemsDistinct (itemReadings vs) = true →
      AllPresentedBy vs (Reading.itemSources (itemReadings vs))
  | [], _ => rfl
  | _ :: _, h => by
    obtain ⟨hv, hrest⟩ := Reading.itemsDistinct_cons.1 h
    exact ⟨_, _, rfl, presentedBy_reading hv, allPresentedBy_itemReadings hrest⟩
termination_by structural vs => vs

theorem membersPresentedBy_memberReadings : ∀ {ms : List (String × Json)},
    Reading.membersDistinct (memberReadings ms) = true →
      MembersPresentedBy ms (Reading.memberSources (memberReadings ms))
  | [], _ => rfl
  | _ :: _, h => by
    obtain ⟨hm, hrest⟩ := Reading.membersDistinct_cons.1 h
    exact ⟨_, _, rfl, memberPresentedBy_memberReading hm, membersPresentedBy_memberReadings hrest⟩
termination_by structural ms => ms

theorem memberPresentedBy_memberReading : ∀ {m : String × Json},
    Reading.memberDistinct (memberReading m) = true →
      MemberPresentedBy m (Reading.memberSource (memberReading m))
  | (_, _), h => ⟨rfl, presentedBy_reading h⟩
termination_by structural m => m

end

/-- A text that is a value, and repeats no key, is read as the value is. -/
theorem reading_of_ofText {text : String} {v : Json} (hv : ofText text = .ok v)
    (hkeys : (Reading.ofText text).value.keysDistinct = true) :
    Reading.ofText text = ⟨v.reading, none⟩ := by
  obtain ⟨w, hw, hrest⟩ := bind_eq_ok_iff.1 hv
  obtain ⟨_, hstop, hrest⟩ := bind_eq_ok_iff.1 hrest
  cases hrest
  have hread := Reading.reading_of_toJson hw hkeys
  have htrailing := Reading.stop_eq_ok_iff.1 hstop
  generalize Reading.ofText text = read at hread htrailing ⊢
  obtain ⟨value, trailing⟩ := read
  obtain rfl : v.reading = value := hread
  obtain rfl : trailing = none := htrailing
  rfl

theorem textSource_readsTexts : ReadsTexts textSource := by
  intro text v hv hkeys
  have hread := reading_of_ofText hv hkeys
  rw [hread] at hkeys
  rw [textSource, hread]
  exact ⟨presentedBy_reading hkeys, rfl⟩

end Json

/-! ### Texts and their values -/

namespace Document

open Json (Reading)

theorem readText_agree {ofText : String → Source × Except DocumentFault Unit}
    {ofValue : Json → Source} (htext : Json.ReadsTexts ofText) (hvalue : Json.ReadsValues ofValue)
    {text : String} {v : Json} (hv : Json.ofText text = .ok v)
    (hkeys : (Reading.ofText text).value.keysDistinct = true) :
    Agree (readText ofText text) (readValue ofValue v) := by
  obtain ⟨hpresented, hending⟩ := htext text v hv hkeys
  rw [Json.reading_of_ofText hv hkeys] at hkeys
  have hdoc := ofSource_agree ⟨v, hpresented, hvalue v hkeys⟩
  show Agree (do let doc ← ofSource (ofText text).1; (ofText text).2; return doc) _
  rw [hending]
  show Agree (ofSource (ofText text).1 >>= pure) (ofSource (ofValue v))
  rw [bind_pure]
  exact hdoc

/-- **Text and value agree.** However texts and values are read, as long as what is
read is presented: a text that is a value, and in which no object repeats a key, is
read as the same document as the value, or both are refused. -/
theorem readText_agrees {ofText : String → Source × Except DocumentFault Unit}
    {ofValue : Json → Source} (htext : Json.ReadsTexts ofText) (hvalue : Json.ReadsValues ofValue)
    {text : String} {v : Json} (hv : Json.ofText text = .ok v)
    (hkeys : (Reading.ofText text).value.keysDistinct = true) :
    (∀ doc, readText ofText text = .ok doc ↔ readValue ofValue v = .ok doc) ∧
      ((∃ fault, readText ofText text = .error fault) ↔
        ∃ fault, readValue ofValue v = .error fault) :=
  have h := readText_agree htext hvalue hv hkeys
  ⟨h.ok_iff, h.error_iff⟩

/-- A view with an attribute, a key that means nothing, and a spec written as an array. -/
def noteText : String :=
  "\x7b\"@layout\":[\x7b\"x\":[1,null],\"@isa\":\"A\"\x7d],\"more\":\x7b\x7d,\"@constraints\":[[\"H:[a]\"]]\x7d"

def noteJson : Json :=
  .object
    [("@layout", .array [.object
        [("x", .array [.number (.integer 1), .null]), ("@isa", .string "A")]]),
      ("more", .object []), ("@constraints", .array [.array [.string "H:[a]"]])]

/-- Readings have no decidable equality; matching decides this one. -/
theorem eq_noteJson_reading {read : Reading.Document} (h : (match read with
    | ⟨.object
        [(some "@layout", .array [.object
            [(some "x", .array [.number (some (.integer 1)), .null] none),
              (some "@isa", .string (some "A"))] none] none),
          (some "more", .object [] none),
          (some "@constraints", .array [.array [.string (some "H:[a]")] none] none)] none, none⟩ =>
      true
    | _ => false) = true) : read = ⟨noteJson.reading, none⟩ := by
  split at h
  · rfl
  · cases h

theorem noteText_read : Reading.ofText noteText = ⟨noteJson.reading, none⟩ :=
  eq_noteJson_reading (by decide +kernel)

theorem noteText_agrees : Json.ReadsTexts Json.textSource ∧ Json.ReadsValues Json.source ∧
    Json.ofText noteText = .ok noteJson ∧
    (Reading.ofText noteText).value.keysDistinct = true ∧
    ∃ doc, readText Json.textSource noteText = .ok doc ∧
      readValue Json.source noteJson = .ok doc := by
  have hv : Json.ofText noteText = .ok noteJson := by
    rw [Json.ofText, noteText_read]
    rfl
  have hkeys : (Reading.ofText noteText).value.keysDistinct = true := by
    rw [noteText_read]
    rfl
  have hread : readValue Json.source noteJson = .ok
      ⟨[.mk "A" none [("x", .array [.number (.integer 1), .null])] []], [⟨"H:[a]", [], []⟩]⟩ := rfl
  have htext := Json.textSource_readsTexts
  have hvalue := Json.source_readsValues
  obtain ⟨hagrees, -⟩ := readText_agrees htext hvalue hv hkeys
  exact ⟨htext, hvalue, hv, hkeys, _, (hagrees _).2 hread, hread⟩

-- A repeated key tells them apart: the text is refused, the value has lost the first mention.
example : (ofText "\x7b\"@layout\":[],\"@layout\":[]\x7d").toOption.isSome = false ∧
    ((Json.ofText "\x7b\"@layout\":[],\"@layout\":[]\x7d").toOption.any
      fun v => (ofJson v).toOption.isSome) = true := by decide +kernel

end Document

end ViewMarkup
