import Mathlib.Data.List.Chain
import RequestForms.Proofs.Command.Items
import RequestForms.Proofs.Command.LastWins
import RequestForms.Proofs.Command.Session

/-!
# The address of a written command

The last part of a command that names an address counts. A written command has its address as a
bare word, and is read back with it exactly if the word looks like one.
-/

namespace RequestForms.Command

theorem Item.eq_of_url?_eq_some {item : Item} {url : String} (h : item.url? = some url) :
    item = .setting .url url ∨ Session.looksLikeUrl url = true := by
  cases item with
  | switch flag => cases h
  | setting flag value =>
      cases flag with
      | url =>
          obtain rfl := Option.some.inj h
          exact Or.inl rfl
      | _ => cases h
  | word text =>
      rw [Item.url?] at h
      split at h
      · next hurl =>
          obtain rfl := Option.some.inj h
          exact Or.inr hurl
      · cases h

/-- The last address that is named counts. -/
theorem url_ofArguments (args : List String) :
    (ofArguments args).url = ((items args).filterMap Item.url?).getLast?.getD "" :=
  Session.url_foldl_apply (items args)

/-! ## Where an address comes from -/

theorem eq_of_ofWord?_eq_url {word : String} (h : Flag.ofWord? word = some (.setting .url)) :
    word = "--url" := by
  unfold Flag.ofWord? at h
  split at h <;> first | rfl | cases h

/-- The value of `--url` stands behind it. -/
theorem exists_of_mem_items {args : List String} {url : String}
    (h : Item.setting .url url ∈ items args) :
    ∃ front behind, args = front ++ "--url" :: url :: behind := by
  obtain ⟨front, word, behind, hargs, hword⟩ := exists_of_setting_mem_items h
  exact ⟨front, behind, by rw [hargs, eq_of_ofWord?_eq_url hword]⟩

/-! ## The arguments behind the address -/

def flagArguments (request : Request) : List String :=
  (request.headers.entries.flatMap fun header => ["-H", header.1 ++ ": " ++ header.2]) ++
    (request.credentials.toList.flatMap fun credentials => ["-u", credentials.joined]) ++
    (request.content.toList.flatMap fun body => ["-d", body]) ++
    (if request.insecure then ["-k"] else [])

theorem fieldArguments_eq_cons {request : Request} (hurl : request.url ≠ "") :
    fieldArguments request = request.url :: flagArguments request := by
  simp only [fieldArguments, flagArguments, if_neg hurl, List.append_assoc, List.cons_append,
    List.nil_append]

theorem filterMap_url?_flagArguments (request : Request) :
    (items (flagArguments request)).filterMap Item.url? = [] := by
  rw [flagArguments, List.append_assoc, List.append_assoc, items_flatMap_append .header rfl,
    items_flatMap_append .user rfl, items_flatMap_append .data rfl, items_insecure,
    List.filterMap_eq_nil_iff]
  intro item hitem
  simp only [List.mem_append, List.mem_map] at hitem
  rcases hitem with ⟨header, -, rfl⟩ | ⟨credentials, -, rfl⟩ | ⟨body, -, rfl⟩ | hitem
  · rfl
  · rfl
  · rfl
  · split at hitem
    · rw [List.mem_singleton.1 hitem]
      rfl
    · cases hitem

theorem isChain_append_of_ne {word next : String} {front rest : List String}
    (hfront : ∀ a ∈ front, a ≠ word) (hrest : rest.IsChain fun a b => a = word → b = next) :
    (front ++ rest).IsChain fun a b => a = word → b = next := by
  induction front with
  | nil => exact hrest
  | cons a front ih =>
      rw [List.cons_append, List.isChain_cons]
      exact ⟨fun b _ ha => absurd ha (hfront a (by simp)),
        ih fun b hb => hfront b (List.mem_cons_of_mem a hb)⟩

/-- Among these arguments `--url` can only be the body, which stands last or in front of `-k`. -/
theorem isChain_flagArguments (request : Request) :
    (flagArguments request).IsChain fun a b => a = "--url" → b = "-k" := by
  have hcolon : ∀ text : String, ':' ∈ text.toList → text ≠ "--url" := by
    rintro text hmem rfl
    exact absurd hmem (by decide)
  have hfront : ∀ a ∈ (request.headers.entries.flatMap fun header =>
      ["-H", header.1 ++ ": " ++ header.2]) ++
        (request.credentials.toList.flatMap fun credentials => ["-u", credentials.joined]),
      a ≠ "--url" := by
    intro a ha
    simp only [List.mem_append, List.mem_flatMap, List.mem_cons, List.not_mem_nil, or_false] at ha
    rcases ha with ⟨header, -, rfl | rfl⟩ | ⟨credentials, -, rfl | rfl⟩
    · decide
    · exact hcolon _ (by simp)
    · decide
    · exact hcolon _ (by simp [Credentials.joined])
  rw [flagArguments, List.append_assoc]
  refine isChain_append_of_ne hfront ?_
  cases request.content with
  | none => cases request.insecure <;> simp
  | some body => cases request.insecure <;> simp

theorem head?_flagArguments_ne (request : Request) :
    (flagArguments request).head? ≠ some "--url" := by
  unfold flagArguments
  cases request.headers.entries with
  | cons header entries => simp
  | nil =>
      cases request.credentials with
      | some credentials => simp
      | none =>
          cases request.content with
          | some body => simp
          | none => cases request.insecure <;> simp

/-! ## Reading the address back -/

/-- A word in the place of the address that is no address is not taken for one behind `--url`. -/
theorem setting_url_not_mem_items {request : Request} (hurl : request.url ≠ "") :
    Item.setting .url request.url ∉ items (fieldArguments request) := by
  intro hmem
  have hflags : ∀ item ∈ items (flagArguments request), item.url? = none :=
    List.filterMap_eq_nil_iff.1 (filterMap_url?_flagArguments request)
  rw [fieldArguments_eq_cons hurl] at hmem
  by_cases hsetting : ∃ flag, Flag.ofWord? request.url = some (.setting flag)
  · -- the word takes the next one as its value, so that the others shift by one
    obtain ⟨flag, hflag⟩ := hsetting
    obtain ⟨front, behind, hargs⟩ := exists_of_mem_items hmem
    cases front with
    | nil =>
        obtain ⟨hword, hrest⟩ := List.cons.inj hargs
        apply head?_flagArguments_ne request
        rw [hrest, List.head?_cons, hword]
    | cons a front =>
        rw [List.cons_append] at hargs
        have hchain := isChain_flagArguments request
        rw [(List.cons.inj hargs).2, List.isChain_append_cons_cons] at hchain
        rw [hchain.2.1 rfl] at hflag
        cases hflag
  · rw [items] at hmem
    split at hmem
    · exact absurd (hflags _ (List.mem_of_ne_of_mem (by simp) hmem)) (by simp [Item.url?])
    · exact absurd (hflags _ (List.mem_of_ne_of_mem (by simp) hmem)) (by simp [Item.url?])
    · next flag hflag => exact hsetting ⟨flag, hflag⟩

/-- The method is no address. -/
theorem filterMap_url?_argumentsOf (request : Request) :
    (items (argumentsOf request)).filterMap Item.url? =
      (items (fieldArguments request)).filterMap Item.url? := by
  rw [argumentsOf]
  split
  · rfl
  · rw [List.cons_append, List.singleton_append, items_cons_setting rfl]
    rfl

theorem url_ofArguments_of_looksLikeUrl {request : Request} (hurl : request.url ≠ "")
    (hlooks : Session.looksLikeUrl request.url = true) :
    (ofArguments (argumentsOf request)).url = request.url := by
  have hfields : (items (fieldArguments request)).filterMap Item.url? = [request.url] := by
    rw [fieldArguments_eq_cons hurl, items, ofWord?_eq_none (head?_ne_of_looksLikeUrl hlooks)]
    simp [Item.url?, hlooks, filterMap_url?_flagArguments]
  rw [url_ofArguments, filterMap_url?_argumentsOf, hfields]
  rfl

theorem looksLikeUrl_of_url_ofArguments {request : Request} (hurl : request.url ≠ "")
    (h : (ofArguments (argumentsOf request)).url = request.url) :
    Session.looksLikeUrl request.url = true := by
  rw [url_ofArguments, filterMap_url?_argumentsOf] at h
  obtain ⟨url, hlast⟩ :
      ∃ url, ((items (fieldArguments request)).filterMap Item.url?).getLast? = some url := by
    apply Option.ne_none_iff_exists'.1
    intro hnone
    rw [hnone] at h
    exact hurl h.symm
  rw [hlast, Option.getD_some] at h
  obtain ⟨item, hmem, hitem⟩ := List.mem_filterMap.1 (List.mem_of_getLast? hlast)
  rw [h] at hitem
  refine (Item.eq_of_url?_eq_some hitem).resolve_left ?_
  rintro rfl
  exact setting_url_not_mem_items hurl hmem

/-- An address comes back from its command exactly if it looks like one to the reader. -/
theorem url_read_render_eq_iff {request : Request} (h : IsUnbroken request)
    (hmethod : ∀ c ∈ request.method.name.toList, Shell.isActive c = false)
    (hurl : request.url ≠ "") :
    (read (render request)).url = request.url ↔ Session.looksLikeUrl request.url = true := by
  rw [read, arguments_render h hmethod]
  exact ⟨looksLikeUrl_of_url_ofArguments hurl, url_ofArguments_of_looksLikeUrl hurl⟩

/-- Names of flags in the other texts change nothing. -/
theorem url_read_render_of_flag_names :
    let request : Request := {
      method := .ofString "--url"
      url := "http:it's \\ -X"
      headers := .ofPairs [("--url", "http://other"), ("-X", "/other")]
      body := some "--url"
      credentials := some ⟨"--url", "/other"⟩
      insecure := true }
    IsUnbroken request ∧ (∀ c ∈ request.method.name.toList, Shell.isActive c = false) ∧
      request.url ≠ "" ∧ (read (render request)).url = request.url := by
  intro request
  have hunbroken : IsUnbroken request := by decide +kernel
  have hmethod : ∀ c ∈ request.method.name.toList, Shell.isActive c = false := by
    decide +kernel
  have hurl : request.url ≠ "" := by decide
  have hlooks : Session.looksLikeUrl request.url = true := by decide
  exact ⟨hunbroken, hmethod, hurl, (url_read_render_eq_iff hunbroken hmethod hurl).2 hlooks⟩

/-- An address without a scheme can be given behind `--url`, and is lost when it is written. -/
theorem url_read_render_ne_of_no_scheme :
    let request := read "curl --url example.com/path"
    IsUnbroken request ∧ (∀ c ∈ request.method.name.toList, Shell.isActive c = false) ∧
      request.url = "example.com/path" ∧ (read (render request)).url = "" := by
  decide +kernel

end RequestForms.Command
