/-
How submissions come to be tracked.

A submission that its fault injector lets pass, and that can be read, is accepted and
tracked under the next nonce of its lane: a post if there is a lane to its destination
(`submit_post_tracked`), a get in any case (`submit_get_tracked`).

Whatever is submitted, it comes to a few steps (`Step`), so that what each step keeps is kept
by every submission (`submit_keeps`).  The first such property is that no get is tracked for a
source without a lane (`Sourced.submit`).
-/
import Interchain.Proofs.Host.Exchange

namespace Interchain
namespace Exchange

variable {x y : Exchange} {l : Lane} {kind : SubmissionKind} {source key envelope : String}
  {reply : Reply}

/-! ## Entries under their keys -/

theorem mem_place {α : Type} {f : α → String} {a b : α} {as : List α} (h : b ∈ place f a as) :
    b = a ∨ b ∈ as := by
  induction as with
  | nil => exact Or.inl (List.mem_singleton.1 h)
  | cons c cs ih =>
    rw [place] at h
    split at h
    · rcases List.mem_cons.1 h with h | h
      · exact Or.inl h
      · exact Or.inr (List.mem_cons_of_mem _ h)
    · rcases List.mem_cons.1 h with rfl | h
      · exact Or.inr List.mem_cons_self
      · exact (ih h).imp_right (List.mem_cons_of_mem _)

theorem find?_place {α : Type} (f : α → String) (a : α) (as : List α) :
    (place f a as).find? (fun b => f b = f a) = some a := by
  induction as with
  | nil => exact List.find?_cons_of_pos (decide_eq_true rfl)
  | cons c cs ih =>
    rw [place]
    split
    · exact List.find?_cons_of_pos (decide_eq_true rfl)
    · next hne =>
      simp only [List.find?_cons, hne, decide_false]
      exact ih

theorem post?_of_place {p : TrackedPost} {ps : List TrackedPost}
    (h : x.posts = place TrackedPost.key p ps) : x.post? p.key = some p := by
  rw [post?, h]
  exact find?_place TrackedPost.key p ps

theorem get?_of_place {g : TrackedGet} {gs : List TrackedGet}
    (h : x.gets = place TrackedGet.key g gs) : x.get? g.key = some g := by
  rw [get?, h]
  exact find?_place TrackedGet.key g gs

/-! ## The fault injector -/

theorem gets_passFaults (x : Exchange) (l : Lane) (kind : SubmissionKind) (envelope : String) :
    (x.passFaults l kind envelope).2.gets = x.gets := rfl

theorem posts_passFaults (x : Exchange) (l : Lane) (kind : SubmissionKind) (envelope : String) :
    (x.passFaults l kind envelope).2.posts = x.posts := rfl

theorem delivering_passFaults (x : Exchange) (l : Lane) (kind : SubmissionKind)
    (envelope : String) : (x.passFaults l kind envelope).2.delivering = x.delivering := rfl

theorem fst_passFaults (x : Exchange) (l : Lane) (kind : SubmissionKind) (envelope : String) :
    (x.passFaults l kind envelope).1 =
      if (l.faults.settings.judge kind x.draws).1 then
        .rejected kind (SimulatedGateway.rejection kind)
      else .accepted l.faults.nextNonce := by
  rw [passFaults, SimulatedGateway.submit]
  rcases l.faults.settings.judge kind x.draws with ⟨_ | _, settings, draws⟩
  · rfl
  · rfl

theorem passFaults_accepted (hpass : (l.faults.settings.judge kind x.draws).1 = false)
    (envelope : String) :
    (x.passFaults l kind envelope).1 = .accepted l.faults.nextNonce := by
  rw [fst_passFaults, hpass]
  rfl

/-! ## Posts -/

def trackedPostOf (l : Lane) (e : PostEnvelope) : TrackedPost :=
  ⟨requestKey l.chain.id l.nextNonce, Outline.requestOf l.card e, .dispatched, none⟩

theorem posts_trackPost (x : Exchange) (l : Lane) (e : PostEnvelope) :
    (x.trackPost l e).2.posts = place TrackedPost.key (trackedPostOf l e) x.posts := rfl

/-- A post that can be read, that has a lane to go to and that passes the fault injector is
tracked. -/
theorem submit_post_tracked {e : PostEnvelope} (hl : x.lane? source = some l)
    (hdecode : PostEnvelope.decode envelope = .ok e) (hdest : (x.lane? e.dest).isSome = true)
    (hpass : (l.faults.settings.judge .post x.draws).1 = false) :
    ∃ y, submit source .post envelope x = (.accepted l.nextNonce, y) ∧
      y.posts = place TrackedPost.key (trackedPostOf l e) x.posts := by
  obtain ⟨d, hd⟩ := Option.isSome_iff_exists.1 hdest
  have hfaults := passFaults_accepted hpass envelope
  have hposts := posts_passFaults x l .post envelope
  rcases hy : x.passFaults l .post envelope with ⟨r, y⟩
  rw [hy] at hfaults hposts
  have hr : r = .accepted l.faults.nextNonce := hfaults
  have hposts : y.posts = x.posts := hposts
  refine ⟨(y.trackPost l e).2, ?_, ?_⟩
  · simp only [submit, hl, submitPost, hdecode, hd, hy, hr]
    rfl
  · rw [posts_trackPost, hposts]

/-! ## Gets -/

def getOf (l : Lane) (e : GetEnvelope) : GetRequest :=
  ⟨l.chain.id, e.dest, l.nextNonce, l.moduleId, e.timeout, e.keys, e.height, e.gasLimit⟩

def trackedGetOf (l : Lane) (e : GetEnvelope) : TrackedGet :=
  ⟨requestKey l.chain.id l.nextNonce, getOf l e, .dispatched⟩

theorem gets_trackGet (x : Exchange) (l : Lane) (e : GetEnvelope) :
    (x.trackGet l e).2.gets = place TrackedGet.key (trackedGetOf l e) x.gets := rfl

theorem gets_of_passFaults {r : Reply} (h : x.passFaults l kind envelope = (r, y)) :
    y.gets = x.gets := by
  have hgets := gets_passFaults x l kind envelope
  rwa [h] at hgets

/-- A get that can be read and that passes the fault injector is tracked. -/
theorem submit_get_tracked {e : GetEnvelope} (hl : x.lane? source = some l)
    (hdecode : GetEnvelope.decode envelope = .ok e)
    (hpass : (l.faults.settings.judge .get x.draws).1 = false) :
    ∃ y, submit source .get envelope x = (.accepted l.nextNonce, y) ∧ y.posts = x.posts ∧
      y.gets = place TrackedGet.key (trackedGetOf l e) x.gets := by
  have hfaults := passFaults_accepted hpass envelope
  have hposts := posts_passFaults x l .get envelope
  rcases hy : x.passFaults l .get envelope with ⟨r, y⟩
  rw [hy] at hfaults hposts
  have hr : r = .accepted l.faults.nextNonce := hfaults
  refine ⟨(y.trackGet l e).2, ?_, hposts, ?_⟩
  · simp only [submit, hl, submitGet, hdecode, hy, hr]
    rfl
  · rw [gets_trackGet, gets_of_passFaults hy]

theorem gets_submitPost (x : Exchange) (l : Lane) (envelope : String) :
    (x.submitPost l envelope).2.gets = x.gets := by
  rw [submitPost]
  split
  · rfl
  · split
    · rfl
    · rcases hf : x.passFaults l .post envelope with ⟨r, y⟩
      have hgets := gets_of_passFaults hf
      cases r with
      | accepted nonce => exact hgets
      | rejected k reason => exact hgets
      | raised text => exact hgets

/-! ## Submissions step by step -/

/-- One thing that the exchange does when a chain submits. -/
inductive Step (source : String) : Exchange → Exchange → Prop
  | counted (x : Exchange) : Step source x { x with rejections := x.rejections + 1 }
  | passed {x : Exchange} {l : Lane} (lane : x.lane? source = some l) (kind : SubmissionKind)
      (envelope : String) : Step source x (x.passFaults l kind envelope).2
  | post {x : Exchange} {l : Lane} (lane : l.card ∈ x.outline.lanes) (e : PostEnvelope) :
      Step source x (x.trackPost l e).2
  | get {x : Exchange} {l : Lane} (lane : l.card ∈ x.outline.lanes) (e : GetEnvelope) :
      Step source x (x.trackGet l e).2
  | acknowledged {x : Exchange} {key : String} (delivering : x.delivering = some key)
      (response : String) :
      Step source x (x.updatePost key (fun p => { p with acknowledgement := some response }))

theorem outline_snd_passFaults (x : Exchange) (l : Lane) (kind : SubmissionKind)
    (envelope : String) : (x.passFaults l kind envelope).2.outline = x.outline :=
  outline_passFaults (r := (x.passFaults l kind envelope).1) rfl

theorem card_mem_passFaults (hl : x.lane? source = some l) (kind : SubmissionKind)
    (envelope : String) : l.card ∈ (x.passFaults l kind envelope).2.outline.lanes := by
  rw [outline_snd_passFaults]
  exact (of_lane?_eq_some hl).1

section

variable {P : Exchange → Prop} (hP : ∀ {x y}, Step source x y → P x → P y)

include hP

theorem submitPost_keeps (hl : x.lane? source = some l) (envelope : String) (hx : P x) :
    P (x.submitPost l envelope).2 := by
  have hcard := card_mem_passFaults hl .post envelope
  have hpassed := hP (.passed hl .post envelope) hx
  rw [submitPost]
  split
  · exact hP (.counted x) hx
  · next e _ =>
    split
    · exact hP (.counted x) hx
    · rcases hfaults : x.passFaults l .post envelope with ⟨r, y⟩
      rw [hfaults] at hpassed hcard
      cases r with
      | accepted nonce => exact hP (.post hcard e) hpassed
      | rejected k reason => exact hP (.counted y) hpassed
      | raised text => exact hpassed

theorem submitGet_keeps (hl : x.lane? source = some l) (envelope : String) (hx : P x) :
    P (x.submitGet l envelope).2 := by
  have hcard := card_mem_passFaults hl .get envelope
  have hpassed := hP (.passed hl .get envelope) hx
  rw [submitGet]
  split
  · exact hP (.counted x) hx
  · next e _ =>
    rcases hfaults : x.passFaults l .get envelope with ⟨r, y⟩
    rw [hfaults] at hpassed hcard
    cases r with
    | accepted nonce => exact hP (.get hcard e) hpassed
    | rejected k reason => exact hP (.counted y) hpassed
    | raised text => exact hpassed

theorem submitResponse_keeps (hl : x.lane? source = some l) (envelope : String) (hx : P x) :
    P (x.submitResponse l envelope).2 := by
  have hpassed := hP (.passed hl .response envelope) hx
  rw [submitResponse]
  split
  · exact hx
  · next p _ =>
    simp only
    split
    · next hkey =>
      have hdelivering := delivering_passFaults x l .response envelope
      rcases hfaults : x.passFaults l .response envelope with ⟨r, y⟩
      rw [hfaults] at hpassed hdelivering
      cases r with
      | accepted nonce =>
        exact hP (.acknowledged (hdelivering.trans hkey) p.response) hpassed
      | rejected k reason => exact hpassed
      | raised text => exact hpassed
    · exact hx

/-- What each step keeps is kept by every submission. -/
theorem submit_keeps (kind : SubmissionKind) (envelope : String) (hx : P x) :
    P (submit source kind envelope x).2 := by
  rw [submit]
  split
  · exact hx
  · next l hl =>
    cases kind with
    | post => exact submitPost_keeps hP hl envelope hx
    | get => exact submitGet_keeps hP hl envelope hx
    | response => exact submitResponse_keeps hP hl envelope hx

end

/-! ## Sources -/

def Sourced (x : Exchange) : Prop := ∀ g ∈ x.gets, g.request.source ∈ x.outline.ids

/-- Gets may change in what is not asked, and lanes may be added. -/
theorem Sourced.mono (hx : x.Sourced) (hids : ∀ id ∈ x.outline.ids, id ∈ y.outline.ids)
    (hgets : ∀ g ∈ y.gets, ∃ g' ∈ x.gets, g'.request = g.request) : y.Sourced := by
  intro g hg
  obtain ⟨g', hg', hrequest⟩ := hgets g hg
  rw [← hrequest]
  exact hids _ (hx g' hg')

theorem Step.ids_eq (h : Step source x y) : y.outline.ids = x.outline.ids := by
  cases h with
  | counted => rfl
  | passed _ kind envelope => rw [outline_snd_passFaults]
  | post _ e =>
    rw [outline_trackPost]
    exact Outline.ids_bump _ _
  | get _ e =>
    rw [outline_trackGet]
    exact Outline.ids_bump _ _
  | @acknowledged key _ response =>
    have houtline : (x.updatePost key (fun p =>
        { p with acknowledgement := some response })).outline = x.outline :=
      outline_updatePost (fun _ => ⟨rfl, rfl, rfl⟩)
    rw [houtline]

theorem Sourced.step (h : Step source x y) (hx : x.Sourced) : y.Sourced := by
  have hids : ∀ id ∈ x.outline.ids, id ∈ y.outline.ids := fun id hid => h.ids_eq ▸ hid
  cases h with
  | counted | passed | post | acknowledged => exact hx.mono hids (fun g hg => ⟨g, hg, rfl⟩)
  | get hlane e =>
    intro g hg
    rcases mem_place hg with rfl | hg
    · exact hids _ (List.mem_map_of_mem hlane)
    · exact hids _ (hx g hg)

theorem Sourced.submit (hx : x.Sourced) (source : String) (kind : SubmissionKind)
    (envelope : String) : (submit source kind envelope x).2.Sourced :=
  submit_keeps Sourced.step kind envelope hx

end Exchange
end Interchain
