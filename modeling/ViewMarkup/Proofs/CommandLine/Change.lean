/-
# What a change does to the data

A change is written as a path, an equals sign and what is to stand at the path.
If the path is one, the value is read again there, and every other path that
neither goes on from it nor leads to it keeps what it reads, unless the two go
through the same array: of that nothing is left. A text that spells no path
changes nothing.

Key definitions: `Json.ofRaw`.
Key theorems: `parseChange_of_spells`, `changedData_of_spells`,
`change_keeps_iff_no_array`.
-/
import ViewMarkup.CommandLine.Run
import ViewMarkup.Proofs.Json.Write
import ViewMarkup.Proofs.Template.Spelling

namespace ViewMarkup

/-- What a raw text is written as: the value that it spells as JSON, or else the
text itself. -/
def Json.ofRaw (raw : String) : Json := (Json.ofText raw).toOption.getD (.string raw)

/-! ### Paths hold no equals sign -/

theorem mem_dropWhile_of_neg {f : Char → Bool} {c : Char} (hc : f c = false) :
    ∀ {cs : List Char}, c ∈ cs → c ∈ cs.dropWhile f
  | d :: cs, h => by
    by_cases hd : f d = true
    · rw [List.dropWhile_cons_of_pos hd]
      rcases List.mem_cons.1 h with rfl | h
      · rw [hc] at hd
        cases hd
      · exact mem_dropWhile_of_neg hc h
    · rwa [List.dropWhile_cons_of_neg hd]

theorem mem_trim {c : Char} {cs : List Char} (hc : isBlank c = false) (h : c ∈ cs) :
    c ∈ trim cs := by
  have hstart := mem_dropWhile_of_neg hc h
  exact List.mem_reverse.2 (mem_dropWhile_of_neg hc (List.mem_reverse.2 hstart))

namespace Path

theorem Spells.no_equals {text : String} {segments : List String} (h : Spells text segments) :
    '=' ∉ text.toList := by
  intro hmem
  have htrim : trim text.toList = (joined segments).toList := by
    rw [← h.trimmed, trimText, String.toList_ofList]
  have hjoined := mem_trim (by decide) hmem
  rw [htrim] at hjoined
  exact absurd (isWordChar_of_mem_joined h.valid '=' hjoined) (by decide)

end Path

theorem splitOnce?_of_not_mem {separator : Char} {after : List Char} :
    ∀ {before : List Char}, separator ∉ before →
      splitOnce? separator (before ++ separator :: after) = some (before, after)
  | [], _ => if_pos rfl
  | c :: before, h => by
    rw [List.mem_cons, not_or] at h
    rw [List.cons_append, splitOnce?, if_neg (Ne.symm h.1), splitOnce?_of_not_mem h.2]
    rfl

/-! ### A change -/

variable {data value : Json} {root path : String} {segments : List String}

theorem parseChange_of_spells (h : Path.Spells path segments) (raw : String) :
    parseChange (path ++ "=" ++ raw) = .ok (path, Json.ofRaw raw) := by
  have hsplit : splitOnce? '=' (path ++ "=" ++ raw).toList = some (path.toList, raw.toList) := by
    rw [String.toList_append, String.toList_append, List.append_assoc]
    exact splitOnce?_of_not_mem h.no_equals
  rw [parseChange, hsplit]
  simp only [String.ofList_toList]
  rfl

theorem changedData_of_spells (h : Path.Spells path segments) :
    changedData data root path value =
      .ok (Json.write value ((⟨segments⟩ : Path).relative root) data) := by
  rw [changedData, Path.parse_of_spells (p := ⟨segments⟩) h]
  rfl

theorem changedData_of_not_spells (h : ∀ segments, ¬ Path.Spells path segments) :
    ∃ reason, changedData data root path value = .error reason := by
  obtain ⟨e, he⟩ := Path.parse_eq_error_iff.2 (not_exists.2 h)
  rw [changedData, he]
  exact ⟨e.message, rfl⟩

/-- **A change keeps what is beside it, but for arrays.** The value that is
written at a path is read there again; a path that parts from it reads the same
as before exactly if it read nothing or goes through no array that the written
path goes through too. A text that spells no path changes nothing. -/
theorem change_keeps_iff_no_array (data : Json) (root path raw : String) :
    (∀ segments, Path.Spells path segments →
      parseChange (path ++ "=" ++ raw) = .ok (path, Json.ofRaw raw) ∧
      ∃ after, changedData data root path (Json.ofRaw raw) = .ok after ∧
        after.lookup ((⟨segments⟩ : Path).relative root) = some (Json.ofRaw raw) ∧
        ∀ q, Json.Parts ((⟨segments⟩ : Path).relative root) q →
          (after.lookup q = data.lookup q ↔ ((data.lookup q).isSome →
            ¬ data.ShareArray ((⟨segments⟩ : Path).relative root) q))) ∧
    ((∀ segments, ¬ Path.Spells path segments) →
      ∃ reason, changedData data root path (Json.ofRaw raw) = .error reason) := by
  refine ⟨fun segments h => ?_, changedData_of_not_spells⟩
  refine ⟨parseChange_of_spells h raw, _, changedData_of_spells h, ?_, fun q hparts => ?_⟩
  · exact Json.lookup_write_self _ _ _
  · exact Json.lookup_write_eq_iff _ hparts

/-! ### Changes beside an array and in one -/

/-- Somebody with a name and a tag. -/
def taggedUser : Json :=
  .object [("user", .object [("name", .string "Ada"), ("tags", .array [.string "x"])])]

theorem userName_spelled : Path.Spells " object.user.name" ["object", "user", "name"] :=
  Path.spells_of_parse (p := ⟨["object", "user", "name"]⟩) rfl

theorem userName_parts : Json.Parts ["user", "name"] ["user", "tags", "0"] :=
  ⟨by decide, by decide⟩

/-- The array of tags is not on the way to the name. -/
theorem taggedUser_no_array : ¬ taggedUser.ShareArray ["user", "name"] ["user", "tags", "0"] := by
  intro h
  rcases h.cases with ⟨items, heq⟩ | ⟨-, user, huser, h⟩
  · cases heq
  · obtain rfl := Option.some.inj huser
    rcases h.cases with ⟨items, heq⟩ | ⟨hsame, -⟩
    · cases heq
    · exact absurd hsame (by decide)

/-- A new name, not written as JSON, leaves the tag alone. -/
theorem taggedUser_keeps_tag :
    parseChange " object.user.name=Bob" = .ok (" object.user.name", .string "Bob") ∧
      ∃ after, changedData taggedUser "object" " object.user.name" (.string "Bob") = .ok after ∧
        after.lookup ["user", "name"] = some (.string "Bob") ∧
        after.lookup ["user", "tags", "0"] = some (.string "x") := by
  have hraw : Json.ofRaw "Bob" = .string "Bob" := by rfl
  obtain ⟨hchange, after, hafter, hread, hkept⟩ :=
    (change_keeps_iff_no_array taggedUser "object" " object.user.name" "Bob").1 _ userName_spelled
  rw [hraw] at hchange hafter hread
  exact ⟨hchange, after, hafter, hread, (hkept _ userName_parts).2 fun _ => taggedUser_no_array⟩

/-- Two items. -/
def twoItems : Json := .object [("items", .array [.string "a", .string "b"])]

/-- Writing one item of an array loses the other one, although no index is
written with zeros in front. -/
theorem twoItems_lose_sibling :
    Path.Spells "object.items.0" ["object", "items", "0"] ∧
      (∀ s ∈ ["items", "0"], Json.IsPlain s) ∧
      (∀ s ∈ ["items", "1"], Path.IsValid s ∧ Json.IsPlain s) ∧
      Json.Parts ["items", "0"] ["items", "1"] ∧
      ∃ after, changedData twoItems "object" "object.items.0" (Json.ofRaw "z") = .ok after ∧
        twoItems.lookup ["items", "1"] = some (.string "b") ∧
        after.lookup ["items", "1"] = none := by
  have hspells : Path.Spells "object.items.0" ["object", "items", "0"] :=
    Path.spells_of_parse (p := ⟨["object", "items", "0"]⟩) rfl
  refine ⟨hspells, ?_, ?_, ⟨by decide, by decide⟩, _, changedData_of_spells hspells, rfl, ?_⟩
  · unfold Json.IsPlain
    decide
  · have hvalid : ∀ s ∈ ["items", "1"], Path.IsValid s := by
      simp only [← Path.isSegment_iff]
      decide
    refine fun s hs => ⟨hvalid s hs, ?_⟩
    revert s
    unfold Json.IsPlain
    decide
  · exact rfl

end ViewMarkup
