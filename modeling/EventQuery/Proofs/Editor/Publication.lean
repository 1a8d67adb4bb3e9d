import EventQuery.Catalog.Demo
import EventQuery.Editor.Session
import Mathlib.Data.List.Induction

/-! What an editor is shown is never stale. The diagnostics published last for a document are those
of its text, although nothing is published for a text whose digest is that of the text before: a
step keeps this between what is stored and what was sent (`Session.Tracked.step`), and so does a
run. -/

namespace EventQuery.Editor

/-! ## What messages leave and notices show -/

/-- The document a message is about. -/
def Message.uri? : Message → Option Url
  | .opened uri _ _ => some uri
  | .changed uri _ _ => some uri
  | .closed uri => some uri
  | .completion uri _ => some uri
  | .hover uri _ => some uri
  | .connect | .connected | .shutdown => none

/-- The text that is stored for a message; of several changes it is the last. -/
def Message.newText? : Message → Option String
  | .opened _ _ text => some text
  | .changed _ _ texts => texts.getLast?
  | _ => none

/-- What a message leaves of a document: its text, nothing when it is closed. A message that does
not touch the document has no effect. -/
def Message.effect? (uri : Url) : Message → Option (Option String)
  | .opened u _ text => if u.text = uri.text then some (some text) else none
  | .changed u _ texts => if u.text = uri.text then texts.getLast?.map some else none
  | .closed u => if u.text = uri.text then some none else none
  | _ => none

/-- The text of a document by what was said of it last. -/
def lastText? (uri : Url) (ms : List Message) : Option String :=
  (ms.filterMap (·.effect? uri)).getLast?.join

def Notice.diagnosticsOf? (uri : Url) : Notice → Option (List Diagnostic)
  | .log _ => none
  | .publish u ds _ => if u.text = uri.text then some ds else none

/-- The diagnostics published last for a document. -/
def latest? (uri : Url) (sent : List Notice) : Option (List Diagnostic) :=
  (sent.filterMap (·.diagnosticsOf? uri)).getLast?

/-- What is published later replaces what was published before. -/
theorem latest?_append (uri : Url) (sent more : List Notice) :
    latest? uri (sent ++ more) = (latest? uri more).or (latest? uri sent) := by
  rw [latest?, List.filterMap_append, List.getLast?_append]
  rfl

theorem lastText?_append_singleton (uri : Url) (ms : List Message) (m : Message) :
    lastText? uri (ms ++ [m]) = (m.effect? uri).getD (lastText? uri ms) := by
  rw [lastText?, List.filterMap_append, List.getLast?_append, List.filterMap_cons,
    List.filterMap_nil]
  cases m.effect? uri <;> rfl

/-- A text that a message leaves is one it brings. -/
theorem Message.newText?_of_effect? {uri : Url} {m : Message} {text : String}
    (h : m.effect? uri = some (some text)) : m.newText? = some text := by
  cases m <;> simp only [effect?, newText?, reduceCtorEq] at h ⊢
  all_goals
    split at h
    · simp_all
    · cases h

/-- A message about another document has no effect on this one. -/
theorem Message.effect?_eq_none {uri other : Url} {m : Message} (h : m.uri? = some other)
    (hne : other.text ≠ uri.text) : m.effect? uri = none := by
  cases m <;> simp_all [uri?, effect?]

/-- The last text of a document was brought by some message. -/
theorem mem_texts_of_lastText? {uri : Url} {ms : List Message} {text : String}
    (h : lastText? uri ms = some text) : text ∈ ms.filterMap Message.newText? := by
  obtain ⟨m, hm, heffect⟩ := List.mem_filterMap.mp
    (List.mem_of_getLast? (Option.join_eq_some_iff.mp h))
  exact List.mem_filterMap.mpr ⟨m, hm, m.newText?_of_effect? heffect⟩

/-! ## Documents -/

namespace Documents

theorem get?_update (ds : Documents) (uri : Url) (version : Int) (text : String) (uri' : Url) :
    (ds.update uri version text).2.get? uri' =
      if uri.text = uri'.text then some (.ofText version text) else ds.get? uri' := by
  rw [get?, update, Std.TreeMap.getElem?_insert]
  simp only [Std.compare_eq_iff_eq]
  rfl

theorem get?_remove (ds : Documents) (uri uri' : Url) :
    (ds.remove uri).2.get? uri' = if uri.text = uri'.text then none else ds.get? uri' := by
  rw [get?, remove, Std.TreeMap.getElem?_erase]
  simp only [Std.compare_eq_iff_eq]
  rfl

/-- Documents are kept under the text of their address. -/
theorem get?_congr (ds : Documents) {uri uri' : Url} (h : uri.text = uri'.text) :
    ds.get? uri = ds.get? uri' := by
  rw [get?, get?, h]

theorem get?_empty (uri : Url) : empty.get? uri = none := Std.TreeMap.getElem?_emptyc

/-- Every document is stored with the digest of its text. -/
def Digested (ds : Documents) : Prop :=
  ∀ uri d, ds.get? uri = some d → d.hash = Digest.ofText d.text

theorem Digested.hash_eq {ds : Documents} (h : ds.Digested) (uri : Url) :
    (ds.get? uri).map (·.hash) = (ds.text? uri).map Digest.ofText := by
  rw [text?]
  cases hd : ds.get? uri with
  | none => rfl
  | some d => exact congrArg some (h uri d hd)

end Documents

namespace Session

variable {catalog : Catalog} {s : Session} {m : Message}

/-! ## One step -/

/-- A text is left out only if the stored one has its digest. -/
theorem latest?_refresh (uri u : Url) (version : Int) (text : String) :
    latest? uri (s.refresh catalog u version text).2 =
      if u.text = uri.text then
        if (s.documents.get? uri).map (·.hash) = some (Digest.ofText text) then none
        else some (diagnostics catalog text)
      else none := by
  by_cases hu : u.text = uri.text
  · rw [if_pos hu, refresh, Documents.update, Documents.differs, s.documents.get?_congr hu]
    cases s.documents.get? uri with
    | none => simp [latest?, Notice.diagnosticsOf?, hu]
    | some d =>
      by_cases hd : d.hash = Digest.ofText text <;>
        simp [latest?, Notice.diagnosticsOf?, Document.ofText, hu, hd]
  · rw [if_neg hu, refresh]
    dsimp only
    split <;> simp [latest?, Notice.diagnosticsOf?, hu]

/-- What is stored of a document after a notification. -/
theorem get?_notify (catalog : Catalog) (s : Session) (m : Message) (uri : Url) :
    ∃ version, (s.notify catalog m).1.documents.get? uri =
      match m.effect? uri with
      | none => s.documents.get? uri
      | some left => left.map (Document.ofText version) := by
  cases m with
  | opened u version text =>
    refine ⟨version, (s.documents.get?_update u version text uri).trans ?_⟩
    rw [Message.effect?]
    split <;> rfl
  | changed u version texts =>
    refine ⟨version, ?_⟩
    rw [notify, Message.effect?]
    cases texts.getLast? with
    | none => cases decEq u.text uri.text <;> simp [*]
    | some text =>
      refine (s.documents.get?_update u version text uri).trans ?_
      split <;> rfl
  | closed u =>
    refine ⟨0, (s.documents.get?_remove u uri).trans ?_⟩
    rw [Message.effect?]
    split <;> rfl
  | _ => exact ⟨0, rfl⟩

theorem text?_notify (uri : Url) : (s.notify catalog m).1.documents.text? uri =
    (m.effect? uri).getD (s.documents.text? uri) := by
  obtain ⟨version, hget⟩ := get?_notify catalog s m uri
  rw [Documents.text?, hget]
  cases m.effect? uri with
  | none => rfl
  | some left => cases left <;> rfl

/-- Stored digests stay those of the stored texts. -/
theorem digested_notify (h : s.documents.Digested) :
    (s.notify catalog m).1.documents.Digested := by
  intro uri d hd
  obtain ⟨version, hget⟩ := get?_notify catalog s m uri
  rw [hget] at hd
  split at hd
  · exact h uri d hd
  · obtain ⟨text, -, rfl⟩ := Option.map_eq_some_iff.mp hd
    rfl

/-- Nothing is published for a text with the digest of the one before; a closed document is
cleared. -/
theorem latest?_notify (uri : Url) : latest? uri (s.notify catalog m).2 =
    match m.effect? uri with
    | none => none
    | some none => some []
    | some (some text) =>
      if (s.documents.get? uri).map (·.hash) = some (Digest.ofText text) then none
      else some (diagnostics catalog text) := by
  cases m with
  | opened u version text =>
    rw [notify, latest?_refresh, Message.effect?]
    split <;> rfl
  | changed u version texts =>
    rw [notify, Message.effect?]
    cases texts.getLast? with
    | none => cases decEq u.text uri.text <;> simp [*, latest?]
    | some text =>
      rw [latest?_refresh]
      split <;> rfl
  | closed u =>
    rw [notify, Message.effect?]
    by_cases hu : u.text = uri.text <;> simp [latest?, Notice.diagnosticsOf?, hu]
  | _ => rfl

theorem isShutDown_notify (hm : m ≠ .shutdown) :
    (s.notify catalog m).1.isShutDown = s.isShutDown := by
  cases m with
  | changed u version texts =>
    rw [notify]
    cases texts.getLast? <;> rfl
  | shutdown => exact absurd rfl hm
  | _ => rfl

theorem step_of_running (h : s.isShutDown = false) : s.step catalog m =
    ⟨(s.notify catalog m).1, (s.notify catalog m).2, s.answer? catalog m⟩ := by
  rw [step, h]
  rfl

/-- What is stored fits what was sent. -/
structure Tracked (catalog : Catalog) (s : Session) (sent : List Notice) : Prop where
  running : s.isShutDown = false
  digested : s.documents.Digested
  published : ∀ uri text, s.documents.text? uri = some text →
    latest? uri sent = some (diagnostics catalog text)
  cleared : ∀ uri, s.documents.text? uri = none → ∀ ds, latest? uri sent = some ds → ds = []

/-- Before any message there is nothing to be stale. -/
theorem tracked_start : Tracked catalog start [] where
  running := rfl
  digested := by
    intro uri d hd
    rw [start, Documents.get?_empty] at hd
    cases hd
  published := by
    intro uri text h
    rw [Documents.text?, start, Documents.get?_empty] at h
    cases h
  cleared := nofun

/-- A step keeps this, if no stored text has the digest of another text that comes in for it. -/
theorem Tracked.step {sent : List Notice} (h : Tracked catalog s sent) (hm : m ≠ .shutdown)
    (hdigest : ∀ uri old new, s.documents.text? uri = some old → m.newText? = some new →
      Digest.ofText old = Digest.ofText new → old = new) :
    Tracked catalog (s.step catalog m).session (sent ++ (s.step catalog m).notices) := by
  rw [step_of_running h.running]
  refine ⟨(isShutDown_notify hm).trans h.running, digested_notify h.digested, ?_, ?_⟩
  · intro uri text ht
    dsimp only at ht ⊢
    rw [text?_notify] at ht
    rw [latest?_append, latest?_notify, h.digested.hash_eq]
    cases heffect : m.effect? uri with
    | none =>
      rw [heffect] at ht
      exact h.published uri text ht
    | some left =>
      rw [heffect] at ht
      cases (show left = some text from ht)
      dsimp only
      split
      next hsame =>
        -- Nothing is published: the text that comes in is the one that was published last.
        obtain ⟨old, hold, hhash⟩ := Option.map_eq_some_iff.mp hsame
        rw [hdigest uri old text hold (m.newText?_of_effect? heffect) hhash] at hold
        exact h.published uri text hold
      next => rfl
  · intro uri ht ds hds
    dsimp only at ht hds
    rw [text?_notify] at ht
    rw [latest?_append, latest?_notify] at hds
    cases heffect : m.effect? uri with
    | none =>
      rw [heffect] at ht hds
      exact h.cleared uri ht ds hds
    | some left =>
      rw [heffect] at ht hds
      cases (show left = none from ht)
      cases hds
      rfl

/-! ## A run -/

/-- The session after some messages. -/
def after (catalog : Catalog) (s : Session) (ms : List Message) : Session :=
  ms.foldl (fun s m => (s.step catalog m).session) s

/-- All that is sent in the course of some messages. -/
def sent (catalog : Catalog) (s : Session) (ms : List Message) : List Notice :=
  (s.run catalog ms).flatMap (·.1)

theorem after_append_singleton (ms : List Message) :
    s.after catalog (ms ++ [m]) = ((s.after catalog ms).step catalog m).session := by
  rw [after, List.foldl_append]
  rfl

theorem run_append_singleton (ms : List Message) :
    s.run catalog (ms ++ [m]) = s.run catalog ms ++ (s.after catalog ms).run catalog [m] := by
  induction ms generalizing s with
  | nil => rfl
  | cons m' ms ih => exact congrArg (_ :: ·) ih

theorem sent_append_singleton (ms : List Message) : s.sent catalog (ms ++ [m]) =
    s.sent catalog ms ++ ((s.after catalog ms).step catalog m).notices := by
  rw [sent, run_append_singleton, List.flatMap_append]
  exact congrArg (_ ++ ·) (List.append_nil _)

theorem not_shutdown_append_singleton {ms : List Message} (h : .shutdown ∉ ms ++ [m]) :
    .shutdown ∉ ms ∧ m ≠ .shutdown := by
  simpa [eq_comm] using h

section
variable {ms : List Message} (hm : .shutdown ∉ ms)
include hm

/-- Only a shutdown ends the session. -/
theorem running_after : (start.after catalog ms).isShutDown = false := by
  induction ms using List.reverseRecOn with
  | nil => rfl
  | append_singleton ms m ih =>
    obtain ⟨hms, hlast⟩ := not_shutdown_append_singleton hm
    rw [after_append_singleton, step_of_running (ih hms), isShutDown_notify hlast, ih hms]

/-- The stored text of a document is the last that the messages brought, unless it was closed
since. -/
theorem text?_after (uri : Url) :
    (start.after catalog ms).documents.text? uri = lastText? uri ms := by
  induction ms using List.reverseRecOn with
  | nil =>
    rw [Documents.text?, after, List.foldl_nil, start, Documents.get?_empty]
    rfl
  | append_singleton ms m ih =>
    obtain ⟨hms, -⟩ := not_shutdown_append_singleton hm
    rw [after_append_singleton, step_of_running (running_after hms), text?_notify, ih hms,
      lastText?_append_singleton]

/-- By induction on the messages, the last one taken off. -/
theorem tracked_after (hdigest : ∀ t ∈ ms.filterMap Message.newText?,
      ∀ t' ∈ ms.filterMap Message.newText?, Digest.ofText t = Digest.ofText t' → t = t') :
    Tracked catalog (start.after catalog ms) (start.sent catalog ms) := by
  induction ms using List.reverseRecOn with
  | nil => exact tracked_start
  | append_singleton ms m ih =>
    obtain ⟨hms, hlast⟩ := not_shutdown_append_singleton hm
    rw [List.filterMap_append] at hdigest
    have ih := ih hms fun t ht t' ht' =>
      hdigest t (List.mem_append_left _ ht) t' (List.mem_append_left _ ht')
    rw [after_append_singleton, sent_append_singleton]
    refine ih.step hlast fun uri old new hold hnew => ?_
    rw [text?_after hms] at hold
    refine hdigest old (List.mem_append_left _ (mem_texts_of_lastText? hold)) new ?_
    exact List.mem_append_right _ (List.mem_filterMap.mpr ⟨m, List.mem_singleton_self _, hnew⟩)

end

/-- What an editor sees of a document whose text is known, or is known to be closed. -/
structure Shows (catalog : Catalog) (s : Session) (sent : List Notice) (uri : Url)
    (text : Option String) : Prop where
  stored : s.documents.text? uri = text
  published : ∀ t, text = some t → latest? uri sent = some (diagnostics catalog t)
  cleared : text = none → ∀ ds, latest? uri sent = some ds → ds = []
  /-- No words to complete are no list of words. -/
  completes : ∀ p, (s.step catalog (.completion uri p)).reply =
    some (.completions ((text.map (completions catalog · p)).filter (· ≠ [])))
  hovers : ∀ p, (s.step catalog (.hover uri p)).reply =
    some (.hover (text.bind (hover? catalog · p)))

theorem Tracked.shows {sent : List Notice} (h : Tracked catalog s sent) (uri : Url) :
    Shows catalog s sent uri (s.documents.text? uri) where
  stored := rfl
  published := h.published uri
  cleared := h.cleared uri
  completes := by
    intro p
    rw [step_of_running h.running]
    cases htext : s.documents.text? uri with
    | none => simp [answer?, htext]
    | some t =>
      simp only [answer?, htext, Option.map_some, Option.getD_some]
      cases completions catalog t p <;> rfl
  hovers := by
    intro p
    rw [step_of_running h.running]
    rfl

/-- **What is published is never stale.** After any messages but a shutdown, if no two texts that
were stored have the same digest: an editor sees of a document what the text calls for that was
opened or changed last and not closed since, or nothing; and no step on another document changes
that. -/
theorem shows_last_text (catalog : Catalog) {ms : List Message} (hm : .shutdown ∉ ms)
    (hdigest : ∀ t ∈ ms.filterMap Message.newText?, ∀ t' ∈ ms.filterMap Message.newText?,
      Digest.ofText t = Digest.ofText t' → t = t') (uri : Url) :
    Shows catalog (start.after catalog ms) (start.sent catalog ms) uri (lastText? uri ms) ∧
    ∀ m other, m.uri? = some other → other.text ≠ uri.text →
      (start.after catalog (ms ++ [m])).documents.get? uri =
        (start.after catalog ms).documents.get? uri ∧
      latest? uri (start.sent catalog (ms ++ [m])) = latest? uri (start.sent catalog ms) ∧
      lastText? uri (ms ++ [m]) = lastText? uri ms := by
  constructor
  · rw [← text?_after hm]
    exact (tracked_after hm hdigest).shows uri
  · intro m other hother hne
    have heffect := m.effect?_eq_none hother hne
    rw [lastText?_append_singleton, heffect, after_append_singleton, sent_append_singleton,
      step_of_running (running_after hm), latest?_append, latest?_notify, heffect]
    obtain ⟨version, hget⟩ := get?_notify catalog (start.after catalog ms) m uri
    rw [heffect] at hget
    exact ⟨hget, rfl, rfl⟩

def draftUrl (name : String) : Url := ⟨"file", none, .segments [name.toList], none, none⟩

/-- Two documents, one of which is changed twice, closed and opened again with the text it had. -/
def draftMessages : List Message :=
  [.connected, .opened (draftUrl "a") 1 "select", .opened (draftUrl "b") 1 "",
    .changed (draftUrl "a") 2 ["s", "select"], .changed (draftUrl "a") 3 [], .closed (draftUrl "a"),
    .opened (draftUrl "a") 1 "select", .closed (draftUrl "b")]

/-- The document that was opened again shows its text, the closed one nothing. -/
theorem drafts_shown :
    .shutdown ∉ draftMessages ∧ Digest.ofText "select" ≠ Digest.ofText "" ∧
      latest? (draftUrl "a") (start.sent .demo draftMessages) =
        some (diagnostics .demo "select") ∧
      ∀ ds, latest? (draftUrl "b") (start.sent .demo draftMessages) = some ds → ds = [] := by
  have hm : .shutdown ∉ draftMessages := by decide
  have hdigest : ∀ t ∈ draftMessages.filterMap Message.newText?,
      ∀ t' ∈ draftMessages.filterMap Message.newText?,
        Digest.ofText t = Digest.ofText t' → t = t' := by
    decide +kernel
  have ha := (shows_last_text .demo hm hdigest (draftUrl "a")).1
  have hb := (shows_last_text .demo hm hdigest (draftUrl "b")).1
  refine ⟨hm, ?_, ha.published "select" ?_, hb.cleared ?_⟩ <;> decide +kernel

end Session

end EventQuery.Editor
