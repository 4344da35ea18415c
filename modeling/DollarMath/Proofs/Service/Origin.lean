import DollarMath.Proofs.Text.Margin
import DollarMath.Service.Middleware

/-!
# Lists of origins

A list setting has fields with commas between them.  An origin may stand in a field with blank
characters around it, and fields may be blank.  Whatever the blank characters are and wherever the
blank fields stand, the origins are read from the setting in their order.  A list with an origin in
it decides alone who is granted: neither the expression setting nor the expression for the local
machine reaches the middleware.
-/

namespace DollarMath
namespace Origin

section Items

theorem items_append_comma (left right : Text) :
    items (left ++ ',' :: right) = items left ++ items right := by
  rw [items, List.splitOn_append_cons_self, List.map_append, List.filter_append, items, items]

theorem items_of_no_comma {field : Text} (noComma : ',' ∉ field) :
    items field = if Text.strip field = [] then [] else [Text.strip field] := by
  rw [items, List.splitOn_eq_singleton noComma, List.map_singleton, List.filter_singleton]
  split <;> simp_all

/-- Induction along the fields of a text. -/
theorem field_induction {motive : Text → Prop} (last : ∀ field, ',' ∉ field → motive field)
    (comma : ∀ field rest, ',' ∉ field → motive rest → motive (field ++ ',' :: rest))
    (text : Text) : motive text := by
  induction length : text.length using Nat.strong_induction_on generalizing text with
  | _ n ih =>
      by_cases member : ',' ∈ text
      · obtain ⟨field, rest, rfl, noComma⟩ := List.eq_append_cons_of_mem member
        refine comma field rest noComma (ih rest.length ?_ rest rfl)
        rw [← length, List.length_append, List.length_cons]
        omega
      · exact last text member

variable {margin : Text} (blank : Text.isBlankText margin)

include blank

theorem comma_not_mem_of_blank : ',' ∉ margin :=
  Text.not_mem_of_isBlankText blank (by decide)

theorem items_append_left (text : Text) : items (margin ++ text) = items text := by
  have noMargin := comma_not_mem_of_blank blank
  induction text using field_induction with
  | last field noComma =>
      rw [items_of_no_comma (by simp [noMargin, noComma]), items_of_no_comma noComma,
        Text.strip_append_left blank]
  | comma field rest noComma ih =>
      rw [← List.append_assoc, items_append_comma, items_append_comma,
        items_of_no_comma (by simp [noMargin, noComma]), items_of_no_comma noComma,
        Text.strip_append_left blank]

theorem items_append_right (text : Text) : items (text ++ margin) = items text := by
  have noMargin := comma_not_mem_of_blank blank
  induction text using field_induction with
  | last field noComma =>
      rw [items_of_no_comma (by simp [noMargin, noComma]), items_of_no_comma noComma,
        Text.strip_append_right _ blank]
  | comma field rest noComma ih =>
      rw [List.append_assoc, List.cons_append, items_append_comma, items_append_comma, ih]

omit blank

theorem items_strip (text : Text) : items (Text.strip text) = items text := by
  obtain ⟨lead, trail, blankLead, blankTrail, whole⟩ := Text.strip_parts text
  conv_rhs => rw [whole, items_append_left blankLead, items_append_right blankTrail]

/-- The items of a setting are its list of origins, when there are any. -/
theorem list?_some (setting : Text) :
    list? (some setting) = if items setting = [] then none else some (items setting) := by
  rw [list?, value?, Option.getD_some, ← items_strip]
  cases Text.strip setting with
  | nil => rfl
  | cons c rest =>
      rw [Option.bind_some]
      cases items (c :: rest) <;> rfl

end Items

section Lists

/-- An origin that can stand in a list. -/
structure IsListable (origin : Text) : Prop where
  /-- It has characters. -/
  nonempty : origin ≠ []
  /-- It has no comma. -/
  no_comma : ',' ∉ origin
  /-- No blank characters stand around it. -/
  no_margin : Text.strip origin = origin

/-- Fields and the origins that they list: each stands in a field with blank characters around it,
and other fields are blank. -/
inductive Lists : List Text → List Text → Prop where
  /-- No fields list no origins. -/
  | nil : Lists [] []
  /-- A blank field lists nothing. -/
  | blank {field : Text} {fields origins : List Text} (blank : Text.isBlankText field) :
      Lists fields origins → Lists (field :: fields) origins
  /-- A field lists the origin in it. -/
  | origin (lead origin trail : Text) {fields origins : List Text}
      (blankLead : Text.isBlankText lead) (blankTrail : Text.isBlankText trail) :
      Lists fields origins → Lists ((lead ++ (origin ++ trail)) :: fields) (origin :: origins)

/-- The setting with these fields. -/
def settingOf (fields : List Text) : Text :=
  (Text.ofString ",").intercalate fields

variable {fields origins : List Text}

theorem items_settingOf_cons (field : Text) (fields : List Text) :
    items (settingOf (field :: fields)) = items field ++ items (settingOf fields) := by
  cases fields with
  | nil =>
      rw [settingOf, List.intercalate_singleton]
      exact (List.append_nil _).symm
  | cons next fields =>
      rw [settingOf, List.intercalate_cons_cons, List.append_assoc]
      exact items_append_comma field (settingOf (next :: fields))

/-- The items of fields are the origins that they list. -/
theorem items_settingOf (lists : Lists fields origins)
    (listable : ∀ origin ∈ origins, IsListable origin) : items (settingOf fields) = origins := by
  induction lists with
  | nil => rfl
  | blank blank _ ih =>
      rw [items_settingOf_cons, items_of_no_comma (comma_not_mem_of_blank blank),
        Text.strip_of_isBlankText blank, ih listable]
      rfl
  | origin lead origin trail blankLead blankTrail _ ih =>
      obtain ⟨here, later⟩ := List.forall_mem_cons.mp listable
      rw [items_settingOf_cons, items_append_left blankLead, items_append_right blankTrail,
        items_of_no_comma here.no_comma, here.no_margin, if_neg here.nonempty, ih later]
      rfl

end Lists

section Grant

variable {origins : List Text} {setting : Option Text} {middleware : Middleware}

/-- The list of origins is all that the check of origins is set up with. -/
theorem Configuration.ofSettings_of_list? (found : list? setting = some origins)
    (expressionSetting : Option Text) :
    Configuration.ofSettings setting expressionSetting = ⟨origins, none⟩ := by
  rw [ofSettings, found]

theorem Middleware.ComparesExactly.granted_eq_none_iff (exact : middleware.ComparesExactly)
    (origins : List Text) (approach : Approach) (origin : Text) :
    middleware.granted ⟨origins, none⟩ approach origin = none ↔
      ¬ (origin ∈ origins ∨ star ∈ origins) := by
  rw [← exact origins approach origin, Option.not_isSome_iff_eq_none]

theorem Middleware.comparesExactly_ofGrants : Middleware.ofGrants.ComparesExactly := by
  intro origins approach origin
  by_cases allOrigins : star ∈ origins
  · simp [ofGrants, Configuration.grant?, allOrigins]
  · by_cases listed : origin ∈ origins
    · simp [ofGrants, Configuration.grant?, allOrigins, listed]
    · simp [ofGrants, Configuration.grant?, allOrigins, listed]

end Grant

/-- Origins are read from their list as they were written into it.  If there are any, a middleware
that compares exactly grants an origin, whether a page asks beforehand or makes a request, if the
origin is in the list or a star is, and names no origin as granted otherwise, whatever the
expression setting holds. -/
theorem origin_list_decides_alone {fields origins : List Text}
    (listable : ∀ origin ∈ origins, IsListable origin) (lists : Lists fields origins) :
    list? (some (settingOf fields)) = (if origins = [] then none else some origins) ∧
      (origins ≠ [] → ∀ (middleware : Middleware), middleware.ComparesExactly →
        ∀ (expressionSetting : Option Text) (origin : Text) (approach : Approach),
          let answer := middleware.granted
            (.ofSettings (some (settingOf fields)) expressionSetting) approach origin
          (origin ∈ origins ∨ star ∈ origins → answer.isSome) ∧
            (¬ (origin ∈ origins ∨ star ∈ origins) → answer = none)) := by
  have read : list? (some (settingOf fields)) = if origins = [] then none else some origins := by
    rw [list?_some, items_settingOf lists listable]
  refine ⟨read, fun nonempty middleware exact expressionSetting origin approach => ?_⟩
  rw [if_neg nonempty] at read
  rw [Configuration.ofSettings_of_list? read]
  exact ⟨(exact origins approach origin).mpr,
    (exact.granted_eq_none_iff origins approach origin).mpr⟩

/-- Two origins among blank fields: the second one is granted, and a page of the local machine is
not, with an expression that would grant every origin. -/
theorem origin_list_decides_alone_of_two :
    let configuration :=
      Configuration.ofSettings (some " \t, https://a.io ,,https://b.io\n") (some ".*")
    (∀ origin ∈ [Text.ofString "https://a.io", "https://b.io"], IsListable origin) ∧
    Lists [" \t", " https://a.io ", "", "https://b.io\n"] ["https://a.io", "https://b.io"] ∧
    settingOf [" \t", " https://a.io ", "", "https://b.io\n"] =
      Text.ofString " \t, https://a.io ,,https://b.io\n" ∧
    list? (some " \t, https://a.io ,,https://b.io\n") =
      some [Text.ofString "https://a.io", "https://b.io"] ∧
    Middleware.ofGrants.ComparesExactly ∧
    (Middleware.ofGrants.granted configuration (.preflight "POST" []) "https://b.io").isSome ∧
    Middleware.ofGrants.granted configuration (.plain "GET") "http://localhost:8000" = none := by
  intro configuration
  have listable : ∀ origin ∈ [Text.ofString "https://a.io", "https://b.io"],
      IsListable origin := by
    simp only [List.forall_mem_cons, List.not_mem_nil, false_imp_iff, implies_true, and_true]
    exact ⟨⟨by decide, by decide, by decide⟩, ⟨by decide, by decide, by decide⟩⟩
  have lists : Lists [Text.ofString " \t", " https://a.io ", "", "https://b.io\n"]
      [Text.ofString "https://a.io", "https://b.io"] :=
    .blank rfl (.origin " " "https://a.io" " " rfl rfl (.blank rfl
      (.origin "" "https://b.io" "\n" rfl rfl .nil)))
  obtain ⟨read, decided⟩ := origin_list_decides_alone listable lists
  have nonempty : [Text.ofString "https://a.io", "https://b.io"] ≠ [] := List.cons_ne_nil _ _
  have exact := Middleware.comparesExactly_ofGrants
  have granted := decided nonempty .ofGrants exact (some ".*") "https://b.io" (.preflight "POST" [])
  have denied :=
    decided nonempty .ofGrants exact (some ".*") "http://localhost:8000" (.plain "GET")
  exact ⟨listable, lists, rfl, read, exact, granted.1 (by decide), denied.2 (by decide)⟩

end Origin
end DollarMath
