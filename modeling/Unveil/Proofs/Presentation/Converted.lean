import Mathlib.Data.List.Forall2
import Unveil.Presentation
import Unveil.Proofs.Slide.Failure
import Unveil.Proofs.Slide.PassCount

namespace Unveil

/-- A search for images that fails only because there is no such image. -/
def ImageFinder.OnlyMisses (findImage : ImageFinder) : Prop :=
  ∀ name error, findImage name = .error error → ∃ missing searched, error = .imageNotFound missing searched

/-- The slides among some nodes. -/
def Node.slidesAmong (nodes : List Node) : List Node := nodes.filter (·.kind = .part .slide)

/-- The last value that some nodes give to a field of the title page. -/
def TitlePage.lastValue? (field : TitleField) (nodes : List Node) : Option (List Node) :=
  (nodes.filter (·.kind = .titleField field)).getLast?.map Node.children

/-- The values of a preamble, each replaced by the last one that some nodes give to its field. -/
def TitlePage.inForce (preamble before : List Node) : TitlePage where
  title := (lastValue? .title before).or (lastValue? .title preamble)
  author := (lastValue? .author before).or (lastValue? .author preamble)
  date := (lastValue? .date before).or (lastValue? .date preamble)

/-- The headings among some nodes that follow others. A heading belongs to the next slide. -/
def Heading.among (before : List Node) : List Node → List Heading
  | [] => []
  | n :: rest =>
    (n.kind.level?.map fun level => ⟨(Node.slidesAmong before).length + 1, level, n.children⟩).toList ++
      among (before ++ [n]) rest

namespace Converter

/-- What a slide is rendered from that stands behind some nodes in the body: its number, the frame title of that
number, and the title values in force there. -/
def jobAfter (c : Converter) (preamble before : List Node) (slide : Node) : SlideJob where
  index := (Node.slidesAmong before).length + 1
  node := slide
  frameTitle := (c.frameTitles.lookup ((Node.slidesAmong before).length + 1)).or (FrameTitle.ofSlide? slide)
  titlePage := .inForce preamble before
  align := .ofOptions slide.params

/-- The slides among some nodes that follow others, in order. -/
def jobsAmong (c : Converter) (preamble before : List Node) : List Node → List SlideJob
  | [] => []
  | n :: rest =>
    (if n.kind = .part .slide then [c.jobAfter preamble before n] else []) ++
      c.jobsAmong preamble (before ++ [n]) rest

end Converter

namespace TitlePage

theorem lastValue?_concat (field : TitleField) (nodes : List Node) (n : Node) :
    lastValue? field (nodes ++ [n]) =
      if n.kind = .titleField field then some n.children else lastValue? field nodes := by
  unfold lastValue?
  rw [List.filter_append]
  by_cases kind : n.kind = .titleField field
  · simp [kind]
  · simp [kind]

/-- A node behind others replaces the value of its field. -/
theorem inForce_concat (preamble before : List Node) (n : Node) :
    inForce preamble (before ++ [n]) = (inForce preamble before).update n := by
  unfold inForce update
  simp only [lastValue?_concat]
  cases kind : n.kind with
  | titleField field => cases field <;> rfl
  | _ => rfl

theorem foldl_update (preamble before nodes : List Node) :
    nodes.foldl update (inForce preamble before) = inForce preamble (before ++ nodes) := by
  induction nodes generalizing before with
  | nil => rw [List.append_nil, List.foldl_nil]
  | cons n rest ih => rw [List.foldl_cons, ← inForce_concat, ih, List.append_assoc, List.singleton_append]

/-- The title page of a preamble holds the last value of each field. -/
theorem foldl_update_empty (preamble : List Node) : preamble.foldl update .empty = inForce preamble [] := by
  have emptied : empty = inForce [] [] := rfl
  rw [emptied, foldl_update]
  simp [inForce, lastValue?]

end TitlePage

namespace Converter

variable {c : Converter} {preamble before : List Node}

/-- What the scan of a body does at one of its children. -/
theorem scanNode_eq (n : Node) {jobs : List SlideJob} {headings : List Heading}
    (counted : jobs.length = (Node.slidesAmong before).length) :
    c.scanNode ⟨.inForce preamble before, jobs, headings⟩ n =
      ⟨.inForce preamble (before ++ [n]),
        jobs ++ (if n.kind = .part .slide then [c.jobAfter preamble before n] else []),
        headings ++ (n.kind.level?.map fun level =>
          (⟨(Node.slidesAmong before).length + 1, level, n.children⟩ : Heading)).toList⟩ := by
  unfold scanNode
  rw [TitlePage.inForce_concat]
  cases kind : n.kind with
  | part p =>
    cases p with
    | slide =>
      simp only [jobAfter, TitlePage.update, kind, NodeKind.level?, counted, if_true, Option.map_none,
        Option.toList_none, List.append_nil]
      cases c.frameTitles.lookup ((Node.slidesAmong before).length + 1) <;> rfl
    | _ => simp [TitlePage.update, kind, NodeKind.level?]
  | heading level => simp [TitlePage.update, kind, NodeKind.level?, counted]
  | _ => simp [TitlePage.update, kind, NodeKind.level?]

/-- The scan of a body finds every slide and every heading with what stands before it. -/
theorem foldl_scanNode (nodes : List Node) {jobs : List SlideJob} {headings : List Heading}
    (counted : jobs.length = (Node.slidesAmong before).length) :
    nodes.foldl c.scanNode ⟨.inForce preamble before, jobs, headings⟩ =
      ⟨.inForce preamble (before ++ nodes), jobs ++ c.jobsAmong preamble before nodes,
        headings ++ Heading.among before nodes⟩ := by
  induction nodes generalizing before jobs headings with
  | nil => simp [jobsAmong, Heading.among]
  | cons n rest ih =>
    have further : (jobs ++ if n.kind = .part .slide then [c.jobAfter preamble before n] else []).length =
        (Node.slidesAmong (before ++ [n])).length := by
      by_cases kind : n.kind = .part .slide <;> simp [Node.slidesAmong, kind, counted]
    rw [List.foldl_cons, scanNode_eq n counted, ih further, jobsAmong, Heading.among]
    simp only [List.append_assoc, List.singleton_append]

theorem jobsAmong_nodes (nodes : List Node) :
    (c.jobsAmong preamble before nodes).map SlideJob.node = Node.slidesAmong nodes := by
  induction nodes generalizing before with
  | nil => rfl
  | cons n rest ih =>
    rw [jobsAmong, List.map_append, ih]
    by_cases kind : n.kind = .part .slide <;> simp [Node.slidesAmong, kind, jobAfter]

/-- Slides are numbered on from those before them. -/
theorem jobsAmong_indices (nodes : List Node) :
    (c.jobsAmong preamble before nodes).map SlideJob.index =
      List.range' ((Node.slidesAmong before).length + 1) (Node.slidesAmong nodes).length := by
  induction nodes generalizing before with
  | nil => rfl
  | cons n rest ih =>
    rw [jobsAmong, List.map_append, ih]
    by_cases kind : n.kind = .part .slide <;> simp [Node.slidesAmong, kind, jobAfter, List.range'_succ]

end Converter

namespace SlideJob

/-- The first of some slides that fails, and why. -/
structure FirstFailure (settings : Settings) (findImage : ImageFinder) (jobs : List SlideJob) (j : SlideJob)
  (error : DeckError) : Prop where
  first : ∃ before after, jobs = before ++ j :: after ∧
    ∀ earlier ∈ before, ∃ slide, earlier.compose settings findImage = .ok slide
  fails : j.compose settings findImage = .error error

variable {settings : Settings} {findImage : ImageFinder} {jobs : List SlideJob}

theorem exists_firstFailure (fails : ∃ j ∈ jobs, ∃ error, j.compose settings findImage = .error error) :
    ∃ j error, FirstFailure settings findImage jobs j error := by
  induction jobs with
  | nil =>
    obtain ⟨_, member, _⟩ := fails
    cases member
  | cons first rest ih =>
    rcases composed : first.compose settings findImage with error | slide
    · exact ⟨first, error, ⟨[], rest, rfl, nofun⟩, composed⟩
    · have later : ∃ j ∈ rest, ∃ error, j.compose settings findImage = .error error := by
        obtain ⟨j, inJobs, error, failed⟩ := fails
        rcases List.mem_cons.mp inJobs with rfl | inRest
        · rw [composed] at failed
          cases failed
        · exact ⟨j, inRest, error, failed⟩
      obtain ⟨j, error, ⟨before, after, split, through⟩, failed⟩ := ih later
      refine ⟨j, error, ⟨first :: before, after, by rw [split, List.cons_append], ?_⟩, failed⟩
      exact List.forall_mem_cons.mpr ⟨⟨slide, composed⟩, through⟩

/-- The error of a slide in its document: the limit of passes as it is, and all else with the number of the
slide around it, once. -/
def Located (settings : Settings) (j : SlideJob) (error : DeckError) : Prop :=
  error = .passLimit j.index settings.maxPasses ∨
    ∃ cause, error = .slide j.index cause ∧ ∀ i inner, cause ≠ .slide i inner

/-- A slide that fails ends the run at once, or its error is told with its number. -/
theorem compose_located {j : SlideJob} {error : DeckError} (misses : findImage.OnlyMisses)
    (failed : j.compose settings findImage = .error error) :
    error = .aborted ∨ j.Located settings (error.inSlide j.index) := by
  rcases compose_error failed with cause | rfl
  · cases cause with
    | columns fault => exact .inr (.inr ⟨.columns fault, rfl, nofun⟩)
    | aborted => exact .inl rfl
    | image missing =>
      obtain ⟨name, searched, rfl⟩ := misses _ _ missing
      exact .inr (.inr ⟨.imageNotFound name searched, rfl, nofun⟩)
  · exact .inr (.inl rfl)

end SlideJob

namespace Converter

variable {c : Converter} {d : Document} {settings : Settings} {findImage : ImageFinder} {total done : Nat}
  {jobs : List SlideJob}

theorem composeFrom_ok_iff {slides : List ComposedSlide} :
    (composeFrom settings findImage total done jobs).1 = .ok slides ↔
      List.Forall₂ (fun j slide => j.compose settings findImage = .ok slide) jobs slides := by
  induction jobs generalizing done slides with
  | nil =>
    rw [List.forall₂_nil_left_iff]
    exact ⟨fun made => (Except.ok.inj made).symm, fun empty => empty ▸ rfl⟩
  | cons j rest ih =>
    rw [composeFrom]
    rcases composed : j.compose settings findImage with error | slide
    · refine ⟨nofun, fun all => ?_⟩
      cases all with
      | cons made _ => exact absurd (composed.symm.trans made) nofun
    · refine map_eq_ok_iff.trans ⟨?_, fun all => ?_⟩
      · rintro ⟨found, later, rfl⟩
        exact .cons composed (ih.mp later)
      · cases all with
        | cons made others =>
          obtain rfl := Except.ok.inj (composed.symm.trans made)
          exact ⟨_, ih.mpr others, rfl⟩

/-- The first slide that fails decides. -/
theorem composeFrom_error {j : SlideJob} {error : DeckError}
    (failure : SlideJob.FirstFailure settings findImage jobs j error) :
    (composeFrom settings findImage total done jobs).1 = .error (error.inSlide j.index) := by
  obtain ⟨⟨before, after, rfl, through⟩, failed⟩ := failure
  induction before generalizing done with
  | nil =>
    rw [List.nil_append, composeFrom, failed]
  | cons first rest ih =>
    obtain ⟨⟨slide, composed⟩, later⟩ := List.forall_mem_cons.mp through
    rw [List.cons_append, composeFrom, composed]
    exact map_eq_error_iff.mpr (ih later)

theorem parts_eq {pre body : Node} (hasPreamble : d.first? (.part .preamble) = some pre)
    (hasBody : d.first? (.part .body) = some body) :
    ∃ preamble, Preamble.ofNode pre = .ok preamble ∧ preamble.titlePage = .inForce pre.children [] ∧
      parts d = .ok (preamble, body) := by
  have kind : pre.kind = .part .preamble := by simpa using List.find?_some hasPreamble
  have read : Preamble.ofNode pre = .ok _ := if_pos kind
  refine ⟨_, read, TitlePage.foldl_update_empty _, ?_⟩
  simp only [parts, Document.preamble, Document.body, Document.part, hasPreamble, hasBody]
  exact congrArg (fun found => found >>= fun p => .ok (p, body)) read

/-- The search in directories only misses. -/
theorem search_onlyMisses (search : ImageSearch) (isFile : String → Bool) : (search.search isFile).OnlyMisses := by
  intro name error failed
  unfold ImageSearch.search at failed
  dsimp only at failed
  split at failed
  · cases failed
  · exact ⟨name, search.directories, (Except.error.inj failed).symm⟩

theorem toFinder_onlyMisses {images : ImageSource} (misses : ∀ find, images = .finder find → find.OnlyMisses)
    (paths : List String) : (images.toFinder paths).OnlyMisses := by
  cases images with
  | finder find => exact misses find rfl
  | files isFile base => exact search_onlyMisses _ isFile

/-- A document that is not converted is not handed over in part. -/
theorem convertInto_error {error : DeckError} (failed : (c.convert d).1 = .error error) {σ : Type}
    (sink : Sink σ) (s : σ) : (c.convertInto sink d).run s = (.error error, s) := by
  rw [convertInto, failed]
  rfl

/-- The slides of a document without its preamble: what stands before each is known from the scan. -/
theorem scan_eq {pre body : Node} {titlePage : TitlePage} (values : titlePage = .inForce pre.children []) :
    c.scan titlePage body =
      ⟨.inForce pre.children body.children, c.jobsAmong pre.children [] body.children,
        Heading.among [] body.children⟩ := by
  rw [scan, values]
  exact @foldl_scanNode c pre.children [] body.children [] [] rfl

theorem convert_eq {preamble : Preamble} {pre body : Node} (found : parts d = .ok (preamble, body))
    (values : preamble.titlePage = .inForce pre.children []) :
    (c.convert d).1 =
      if c.jobsAmong pre.children [] body.children = [] then .error .emptyPresentation
      else
        (composeFrom (c.settingsFor preamble) (c.images.toFinder preamble.graphicsPaths)
          (c.jobsAmong pre.children [] body.children).length 0
          (c.jobsAmong pre.children [] body.children)).1.map
            fun slides => ⟨slides, Heading.among [] body.children, (c.settingsFor preamble).saveAs⟩ := by
  rw [convert, found]
  dsimp only
  rw [scan_eq values]
  cases c.jobsAmong pre.children [] body.children with
  | nil => rfl
  | cons j rest => rfl

/-- The slides that were rendered keep their numbers. -/
theorem composed_indices {slides : List ComposedSlide}
    (composed : List.Forall₂ (fun j slide => SlideJob.compose j settings findImage = .ok slide) jobs slides) :
    slides.map ComposedSlide.index = jobs.map SlideJob.index := by
  induction composed with
  | nil => rfl
  | @cons j slide _ _ made _ ih =>
    have same : slide.index = j.index := by
      obtain ⟨passes, _, rfl⟩ := map_eq_ok_iff.mp made
      rfl
    rw [List.map_cons, List.map_cons, same, ih]

/-- Converting a document. The slides are the children of that kind in its first body, numbered from 1, each
rendered with the frame title that is given for its number, or else its own, and with the title values that
stand last before it; every heading is kept with the number of the slide behind it. The first slide that
fails decides the error, which names the slide unless the run ended there, and a receiver is not called then. -/
theorem convert_document {pre body : Node} (hasPreamble : d.first? (.part .preamble) = some pre)
    (hasBody : d.first? (.part .body) = some body) :
    ∃ preamble, Preamble.ofNode pre = .ok preamble ∧
      let settings := c.settingsFor preamble
      let findImage := c.images.toFinder preamble.graphicsPaths
      let jobs := c.jobsAmong pre.children [] body.children
      jobs.map SlideJob.node = Node.slidesAmong body.children ∧
      jobs.map SlideJob.index = List.range' 1 (Node.slidesAmong body.children).length ∧
      (∀ p, (c.convert d).1 = .ok p ↔
        jobs ≠ [] ∧ List.Forall₂ (fun j slide => j.compose settings findImage = .ok slide) jobs p.slides ∧
          p.headings = Heading.among [] body.children ∧ p.saveAs = settings.saveAs) ∧
      (∀ p, (c.convert d).1 = .ok p →
        p.slides.map ComposedSlide.index = List.range' 1 (Node.slidesAmong body.children).length) ∧
      (jobs = [] → (c.convert d).1 = .error .emptyPresentation) ∧
      ((∃ j ∈ jobs, ∃ error, j.compose settings findImage = .error error) →
        ∃ j error, SlideJob.FirstFailure settings findImage jobs j error ∧
          (c.convert d).1 = .error (error.inSlide j.index) ∧
          ((∀ find, c.images = .finder find → find.OnlyMisses) →
            error = .aborted ∨ j.Located settings (error.inSlide j.index))) ∧
      (∀ error, (c.convert d).1 = .error error → ∀ (σ : Type) (sink : Sink σ) (s : σ),
        (c.convertInto sink d).run s = (.error error, s)) := by
  obtain ⟨preamble, read, values, found⟩ := parts_eq hasPreamble hasBody
  refine ⟨preamble, read, ?_⟩
  intro settings findImage jobs
  have converted := convert_eq (c := c) found values
  have indices : jobs.map SlideJob.index = List.range' 1 (Node.slidesAmong body.children).length :=
    jobsAmong_indices _
  have success (p : Presentation) : (c.convert d).1 = .ok p ↔
      jobs ≠ [] ∧ List.Forall₂ (fun j slide => j.compose settings findImage = .ok slide) jobs p.slides ∧
        p.headings = Heading.among [] body.children ∧ p.saveAs = settings.saveAs := by
    rw [converted]
    by_cases noJobs : jobs = []
    · rw [if_pos noJobs]
      exact ⟨nofun, fun ⟨nonempty, _⟩ => absurd noJobs nonempty⟩
    · rw [if_neg noJobs, map_eq_ok_iff]
      constructor
      · rintro ⟨slides, ran, rfl⟩
        exact ⟨noJobs, composeFrom_ok_iff.mp ran, rfl, rfl⟩
      · rintro ⟨-, composed, headings, saveAs⟩
        exact ⟨p.slides, composeFrom_ok_iff.mpr composed, by rw [← headings, ← saveAs]⟩
  refine ⟨jobsAmong_nodes _, indices, success, ?_, ?_, ?_, fun error failed σ sink s =>
    convertInto_error failed sink s⟩
  · intro p done
    obtain ⟨_, composed, _⟩ := (success p).mp done
    rw [composed_indices composed, indices]
  · intro noJobs
    rw [converted, if_pos noJobs]
  · intro fails
    obtain ⟨j, error, failure⟩ := SlideJob.exists_firstFailure fails
    refine ⟨j, error, failure, ?_, fun misses =>
      SlideJob.compose_located (toFinder_onlyMisses misses _) failure.fails⟩
    have nonempty : jobs ≠ [] := by
      obtain ⟨_, inJobs, _⟩ := fails
      exact List.ne_nil_of_mem inJobs
    rw [converted, if_neg nonempty]
    exact map_eq_error_iff.mpr (composeFrom_error failure)

/-- A preamble with a title, and a body of a section, a slide of text, another title, and a slide with a picture
that is not found. -/
def missingPicture : Document :=
  .ofParts ⟨.part .preamble, .none, "", none, [⟨.titleField .title, .none, "", none, [.ofText "one"]⟩]⟩
    ⟨.part .body, .none, "", none,
      [⟨.heading .section, .none, "", none, [.ofText "start"]⟩,
        ⟨.part .slide, .none, "", none, [.ofText "a"]⟩,
        ⟨.titleField .title, .none, "", none, [.ofText "two"]⟩,
        ⟨.part .slide, .none, "", none, [⟨.image, .none, "", some (.text "b"), []⟩]⟩]⟩

/-- A converter that finds no picture and knows a title for the first slide. -/
def withoutPictures : Converter where
  settings := .standard
  frameTitles := [(1, .empty)]
  images := .finder SlideJob.noPictures

/-- The second slide fails, and the receiver is left alone. -/
theorem convert_document_missingPicture :
    (withoutPictures.convert missingPicture).1 = .error (.slide 2 (.imageNotFound "b" [])) ∧
      ∀ (σ : Type) (sink : Sink σ) (s : σ),
        (withoutPictures.convertInto sink missingPicture).run s =
          (.error (.slide 2 (.imageNotFound "b" [])), s) := by
  obtain ⟨preamble, read, _, _, _, _, _, fails, untouched⟩ :=
    convert_document (c := withoutPictures) (d := missingPicture) rfl rfl
  obtain rfl := Except.ok.inj read
  let first := withoutPictures.jobAfter [⟨.titleField .title, .none, "", none, [.ofText "one"]⟩]
    [⟨.heading .section, .none, "", none, [.ofText "start"]⟩] ⟨.part .slide, .none, "", none, [.ofText "a"]⟩
  obtain ⟨slide, composed⟩ : ∃ slide, first.compose .standard SlideJob.noPictures = .ok slide :=
    SlideJob.compose_succeeds rfl (by decide) (by decide)
  let second := withoutPictures.jobAfter [⟨.titleField .title, .none, "", none, [.ofText "one"]⟩]
    [⟨.heading .section, .none, "", none, [.ofText "start"]⟩,
      ⟨.part .slide, .none, "", none, [.ofText "a"]⟩,
      ⟨.titleField .title, .none, "", none, [.ofText "two"]⟩]
    ⟨.part .slide, .none, "", none, [⟨.image, .none, "", some (.text "b"), []⟩]⟩
  have failed : second.compose .standard SlideJob.noPictures = .error (.imageNotFound "b" []) := by
    rw [SlideJob.compose, SlideJob.passesFrom]
    rfl
  obtain ⟨j, error, ⟨⟨before, after, split, through⟩, fault⟩, result, _⟩ :=
    fails ⟨second, .tail _ (.head _), _, failed⟩
  have result : (withoutPictures.convert missingPicture).1 = .error (.slide 2 (.imageNotFound "b" [])) := by
    change [first, second] = before ++ j :: after at split
    rcases before with _ | ⟨_, _ | ⟨_, rest⟩⟩
    · obtain ⟨rfl, -⟩ := List.cons.inj split
      cases composed.symm.trans fault
    · obtain ⟨-, split⟩ := List.cons.inj split
      obtain ⟨rfl, -⟩ := List.cons.inj split
      obtain rfl := Except.error.inj (failed.symm.trans fault)
      exact result
    · have long := congrArg List.length split
      simp at long
  exact ⟨result, fun σ sink s => untouched _ result σ sink s⟩

end Converter

end Unveil
