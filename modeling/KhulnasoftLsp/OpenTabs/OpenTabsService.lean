import KhulnasoftLsp.ByteSize
import KhulnasoftLsp.DocumentService
import KhulnasoftLsp.LruCache
import KhulnasoftLsp.Redaction.SecretRedactor
import KhulnasoftLsp.Transition

/-!
# The open tabs

`DefaultOpenTabsService` keeps the contexts of the documents that were used most recently: with
each event about a document its context is computed again, with the secrets redacted, and put into
an LRU cache of 24 MB. A document that is closed is taken out.

The cache is of a package, and may be any that does what the documentation of the package says
(`LruCache.Lawful`). It is compared with `shownContexts`, a plain map from documents to contexts
that knows neither of use nor of sizes: it never has anything else, and nothing is missing for as
long as all contexts fit in (`openFiles_of_run`).
-/

namespace KhulnasoftLsp

open Transition LruCache

/-- The part of the client's configuration that a context depends on. -/
structure ContextSettings where
  workspaceFolders : Option (List WorkspaceFolder)
  enableSecretRedaction : Bool
  deriving DecidableEq, Repr

namespace OpenTabsLruCache

/-- `LRU_CACHE_BYTE_SIZE_LIMIT` -/
def lruCacheByteSizeLimit : Nat := 24 * 1024 * 1024

/-- `#getDocumentSize` -/
def getDocumentSize (context : IDocContext) : Nat :=
  max 1 (ByteSize.getByteSize (context.prefixText ++ context.suffix))

end OpenTabsLruCache

open OpenTabsLruCache

/-- The documents, the configuration, and the cache. -/
structure OpenTabs (cache : LruCache String IDocContext) where
  documentService : DefaultDocumentService
  settings : ContextSettings
  openFiles : cache.State

inductive OpenTabsEvent where
  | notification (notification : DocumentNotification)
  | configChange (settings : ContextSettings)
  /-- The content of an open tab is looked up. -/
  | getItemWithContent (id : String)

section

variable (toLowerCase : JsString → JsString) (rules : List Redaction.IGitleaksRule)

/-- `getContext` of the document transformer, with the cursor at the start. There is no context of a
document that is not open, or in which the redaction of the secrets throws. -/
def getContext (documentService : DefaultDocumentService) (settings : ContextSettings)
    (uri : String) : Option IDocContext :=
  (documentService.getDocument uri).bind fun document =>
    Redaction.transform toLowerCase rules settings.enableSecretRedaction
      (getDocContext document ⟨0, 0⟩ (settings.workspaceFolders.getD []) none)

namespace OpenTabs

variable {cache : LruCache String IDocContext}

def new (settings : ContextSettings) : OpenTabs cache :=
  ⟨DefaultDocumentService.new, settings, cache.new⟩

/-- `#updateOpenTabs` -/
def updateOpenTabs (getContext : String → Option IDocContext) (lruCache : cache.State)
    (change : DocumentChange) : cache.State :=
  match change.handlerType with
  | .onDidClose => cache.delete change.document.uri lruCache
  | .onDidChangeContent | .onDidSave | .onDidOpen | .onDidSetActive =>
    match getContext change.document.uri with
    | some context => cache.set context.uri context lruCache
    | none => lruCache
  | .onDocumentLanguageChange => lruCache

def step (s : OpenTabs cache) : OpenTabsEvent → Option (OpenTabs cache)
  | .notification notification =>
    let handled := s.documentService.handle notification
    some { s with
      documentService := handled.1
      openFiles := handled.2.foldl
        (updateOpenTabs (getContext toLowerCase rules handled.1 s.settings)) s.openFiles }
  | .configChange settings => some { s with settings }
  | .getItemWithContent id => some { s with openFiles := cache.get id s.openFiles }

/-! ## The contexts, with neither order nor limit -/

/-- The contexts after an event about a document. -/
def shownAfter (getContext : String → Option IDocContext) (shown : String → Option IDocContext)
    (change : DocumentChange) : String → Option IDocContext :=
  match change.handlerType with
  | .onDidClose => Function.update shown change.document.uri none
  | .onDidChangeContent | .onDidSave | .onDidOpen | .onDidSetActive =>
    Function.update shown change.document.uri
      ((getContext change.document.uri).or (shown change.document.uri))
  | .onDocumentLanguageChange => shown

/-- The contexts of the documents after a run: of each one that was not closed since, the last that
could be computed. -/
def shownContexts (documentService : DefaultDocumentService) (settings : ContextSettings)
    (shown : String → Option IDocContext) : List OpenTabsEvent → String → Option IDocContext
  | [] => shown
  | .notification notification :: as =>
    let handled := documentService.handle notification
    shownContexts handled.1 settings
      (handled.2.foldl (shownAfter (getContext toLowerCase rules handled.1 settings)) shown) as
  | .configChange settings :: as => shownContexts documentService settings shown as
  | .getItemWithContent _ :: as => shownContexts documentService settings shown as

end OpenTabs

variable {toLowerCase rules}

theorem uri_of_transform {enableSecretRedaction : Bool} {context redacted : IDocContext}
    (h : Redaction.transform toLowerCase rules enableSecretRedaction context = some redacted) :
    redacted.uri = context.uri := by
  rw [Redaction.transform] at h
  split at h
  · cases h
    rfl
  · simp only [Option.bind_eq_bind, Option.bind_eq_some_iff] at h
    obtain ⟨prefixText, -, suffix, -, hredacted⟩ := h
    cases hredacted
    rfl

/-- A context that is shown is shown under the URI of its document. -/
def ShownByUri (shown : String → Option IDocContext) : Prop :=
  ∀ uri context, shown uri = some context → context.uri = uri

theorem shownByUri_getContext {documentService : DefaultDocumentService}
    (hkept : documentService.KeptByUri) (settings : ContextSettings) :
    ShownByUri (getContext toLowerCase rules documentService settings) := by
  intro uri context h
  obtain ⟨document, hdocument, htransform⟩ := Option.bind_eq_some_iff.mp h
  rw [uri_of_transform htransform]
  exact hkept uri document hdocument

namespace OpenTabs

variable {cache : LruCache String IDocContext} {openFiles : cache.State}
  {shown : String → Option IDocContext} {s t : OpenTabs cache}

/-! ## The contexts of the documents -/

theorem shownAfter_of_ne {getContext : String → Option IDocContext} {change : DocumentChange}
    {uri : String} (h : uri ≠ change.document.uri) :
    shownAfter getContext shown change uri = shown uri := by
  obtain ⟨document, handlerType⟩ := change
  cases handlerType with
  | onDocumentLanguageChange => rfl
  | onDidOpen | onDidChangeContent | onDidSave | onDidSetActive | onDidClose =>
      exact Function.update_of_ne h _ _

theorem foldl_shownAfter_of_ne {getContext : String → Option IDocContext}
    {changes : List DocumentChange} {uri : String}
    (h : ∀ change ∈ changes, uri ≠ change.document.uri) :
    changes.foldl (shownAfter getContext) shown uri = shown uri := by
  induction changes generalizing shown with
  | nil => rfl
  | cons change changes ih =>
      rw [List.foldl_cons, ih fun c hc => h c (List.mem_cons_of_mem _ hc),
        shownAfter_of_ne (h change List.mem_cons_self)]

theorem shownAfter_self {getContext : String → Option IDocContext} {document : TextDocument}
    {handlerType : TextDocumentChangeListenerType} (hclose : handlerType ≠ .onDidClose)
    (hlanguage : handlerType ≠ .onDocumentLanguageChange) :
    shownAfter getContext shown ⟨document, handlerType⟩ document.uri =
      (getContext document.uri).or (shown document.uri) := by
  cases handlerType with
  | onDidClose => exact absurd rfl hclose
  | onDocumentLanguageChange => exact absurd rfl hlanguage
  | onDidOpen | onDidChangeContent | onDidSave | onDidSetActive => exact Function.update_self _ _ _

/-- A document whose last event has changed it shows its context, if there is one. -/
theorem foldl_shownAfter_of_some {getContext : String → Option IDocContext}
    {document : TextDocument} {context : IDocContext}
    (hcontext : getContext document.uri = some context) {before : List DocumentChange}
    (hbefore : ∀ change ∈ before, change.document = document) :
    List.foldl (shownAfter getContext) shown (before ++ [⟨document, .onDidChangeContent⟩]) =
      Function.update shown document.uri (some context) := by
  funext uri
  rw [List.foldl_append, List.foldl_cons, List.foldl_nil, Function.update_apply]
  split
  · next heq =>
    rw [heq, shownAfter_self (by simp) (by simp), hcontext]
    rfl
  · next hne =>
    rw [shownAfter_of_ne hne, foldl_shownAfter_of_ne]
    intro change hchange
    rw [hbefore change hchange]
    exact hne

/-! ## The cache and the contexts -/

section Cache

variable {maxSize : Nat} (hcache : cache.Lawful getDocumentSize maxSize)
  {getContext : String → Option IDocContext}

include hcache

/-- One event about a document, in the cache and in the map. -/
theorem shows_update (huri : ShownByUri getContext) (h : Shows (cache.entries openFiles) shown)
    (change : DocumentChange) :
    Shows (cache.entries (updateOpenTabs getContext openFiles change))
      (shownAfter getContext shown change) := by
  obtain ⟨document, handlerType⟩ := change
  have hrefresh : Shows
      (cache.entries (match getContext document.uri with
        | some context => cache.set context.uri context openFiles
        | none => openFiles))
      (Function.update shown document.uri
        ((getContext document.uri).or (shown document.uri))) := by
    cases hcontext : getContext document.uri with
    | none => simpa using h
    | some context =>
        show Shows (cache.entries (cache.set context.uri context openFiles)) _
        rw [huri _ _ hcontext]
        exact hcache.shows_set h document.uri context
  cases handlerType with
  | onDidClose => exact hcache.shows_delete h document.uri
  | onDocumentLanguageChange => exact h
  | onDidOpen | onDidChangeContent | onDidSave | onDidSetActive => exact hrefresh

theorem shows_foldl (huri : ShownByUri getContext) (h : Shows (cache.entries openFiles) shown)
    (changes : List DocumentChange) :
    Shows (cache.entries (changes.foldl (updateOpenTabs getContext) openFiles))
      (changes.foldl (shownAfter getContext) shown) := by
  induction changes generalizing openFiles shown with
  | nil => exact h
  | cons change changes ih => exact ih (shows_update hcache huri h change)

theorem shows_run (hkept : s.documentService.KeptByUri)
    (h : Shows (cache.entries s.openFiles) shown) {as : List OpenTabsEvent}
    (hrun : run (step toLowerCase rules) s as = some t) :
    Shows (cache.entries t.openFiles)
      (shownContexts toLowerCase rules s.documentService s.settings shown as) := by
  induction as generalizing s shown with
  | nil =>
      cases hrun
      exact h
  | cons a as ih =>
      rw [run_cons, Option.bind_eq_some_iff] at hrun
      obtain ⟨m, hm, hrest⟩ := hrun
      cases a with
      | notification notification =>
          cases hm
          have hkept' := hkept.handle notification
          exact ih hkept' (shows_foldl hcache (shownByUri_getContext hkept' s.settings) h _) hrest
      | configChange settings =>
          cases hm
          exact ih (s := { s with settings }) hkept h hrest
      | getItemWithContent id =>
          cases hm
          exact ih (s := { s with openFiles := cache.get id s.openFiles }) hkept
            (hcache.shows_get h id) hrest

/-- No context is missing after an event about a document, if there is room for it. -/
theorem complete_update (huri : ShownByUri getContext)
    (hshows : Shows (cache.entries openFiles) shown)
    (h : Complete (cache.entries openFiles) shown) {change : DocumentChange}
    (hfit : change.handlerType ≠ .onDidClose → ∀ context ∈ getContext change.document.uri,
      FitTogether getDocumentSize maxSize
        (Function.update shown change.document.uri (some context))) :
    Complete (cache.entries (updateOpenTabs getContext openFiles change))
      (shownAfter getContext shown change) := by
  obtain ⟨document, handlerType⟩ := change
  have hrefresh : handlerType ≠ .onDidClose → Complete
      (cache.entries (match getContext document.uri with
        | some context => cache.set context.uri context openFiles
        | none => openFiles))
      (Function.update shown document.uri
        ((getContext document.uri).or (shown document.uri))) := by
    intro hopen
    cases hcontext : getContext document.uri with
    | none => simpa using h
    | some context =>
        show Complete (cache.entries (cache.set context.uri context openFiles)) _
        rw [huri _ _ hcontext]
        exact hcache.complete_set hshows h (hfit hopen context hcontext)
  cases handlerType with
  | onDidClose => exact hcache.complete_delete h document.uri
  | onDocumentLanguageChange => exact h
  | onDidOpen | onDidChangeContent | onDidSave | onDidSetActive => exact hrefresh (by simp)

/-- Nor after several events about one document that stays open. -/
theorem complete_foldl (huri : ShownByUri getContext)
    (hshows : Shows (cache.entries openFiles) shown)
    (h : Complete (cache.entries openFiles) shown) {document : TextDocument}
    {changes : List DocumentChange} (hchanges : ∀ change ∈ changes, change.document = document)
    (hfit : ∀ context ∈ getContext document.uri,
      FitTogether getDocumentSize maxSize (Function.update shown document.uri (some context))) :
    Complete (cache.entries (changes.foldl (updateOpenTabs getContext) openFiles))
      (changes.foldl (shownAfter getContext) shown) := by
  induction changes generalizing openFiles shown with
  | nil => exact h
  | cons change changes ih =>
      obtain ⟨rfl, hrest⟩ := List.forall_mem_cons.mp hchanges
      apply ih (shows_update hcache huri hshows change)
        (complete_update hcache huri hshows h fun _ => hfit) hrest
      intro context hcontext
      -- the other events change no more than this document's context
      have hupdate : Function.update (shownAfter getContext shown change) change.document.uri
          (some context) = Function.update shown change.document.uri (some context) := by
        funext uri
        rw [Function.update_apply, Function.update_apply]
        split
        · rfl
        · next hne => exact shownAfter_of_ne hne
      rw [hupdate]
      exact hfit context hcontext

/-- No context is missing after a notification, if there is room for all of them. -/
theorem complete_handle {documentService : DefaultDocumentService} (huri : ShownByUri getContext)
    (hshows : Shows (cache.entries openFiles) shown)
    (h : Complete (cache.entries openFiles) shown) (notification : DocumentNotification)
    (hfit : FitTogether getDocumentSize maxSize
      ((documentService.handle notification).2.foldl (shownAfter getContext) shown)) :
    Complete (cache.entries ((documentService.handle notification).2.foldl
      (updateOpenTabs getContext) openFiles))
      ((documentService.handle notification).2.foldl (shownAfter getContext) shown) := by
  rcases documentService.handle_cases notification with
    ⟨document, before, -, hchanges, hbefore⟩ | ⟨uri, document, -, -, hchanges⟩ |
      ⟨-, hchanges | ⟨document, handlerType, htype, hchanges⟩⟩
  · rw [hchanges] at hfit ⊢
    have hdocument : ∀ change ∈ before ++ [⟨document, .onDidChangeContent⟩],
        change.document = document := by
      intro change hchange
      rcases List.mem_append.mp hchange with hchange | hchange
      · exact (hbefore change hchange).1
      · rw [List.mem_singleton.mp hchange]
    apply complete_foldl hcache huri hshows h hdocument
    intro context hcontext
    rwa [foldl_shownAfter_of_some hcontext fun change hchange => (hbefore change hchange).1]
      at hfit
  · rw [hchanges, List.foldl_cons, List.foldl_nil, List.foldl_cons, List.foldl_nil]
    apply complete_update hcache huri hshows h
    intro hopen
    exact absurd rfl hopen
  · rw [hchanges]
    exact h
  · rw [hchanges] at hfit ⊢
    apply complete_update hcache huri hshows h
    intro _ context hcontext
    have hshown : shownAfter getContext shown ⟨document, handlerType⟩ =
        Function.update shown document.uri (some context) := by
      rcases htype with rfl | rfl
      all_goals
        show Function.update shown document.uri ((getContext document.uri).or _) = _
        rw [hcontext]
        rfl
    rw [List.foldl_cons, List.foldl_nil, hshown] at hfit
    exact hfit

theorem complete_run (hkept : s.documentService.KeptByUri)
    (hshows : Shows (cache.entries s.openFiles) shown)
    (h : Complete (cache.entries s.openFiles) shown) {as : List OpenTabsEvent}
    (hfit : ∀ front, front <+: as → FitTogether getDocumentSize maxSize
      (shownContexts toLowerCase rules s.documentService s.settings shown front))
    (hrun : run (step toLowerCase rules) s as = some t) :
    Complete (cache.entries t.openFiles)
      (shownContexts toLowerCase rules s.documentService s.settings shown as) := by
  induction as generalizing s shown with
  | nil =>
      cases hrun
      exact h
  | cons a as ih =>
      rw [run_cons, Option.bind_eq_some_iff] at hrun
      obtain ⟨m, hm, hrest⟩ := hrun
      have hlater : ∀ front, front <+: as → FitTogether getDocumentSize maxSize
          (shownContexts toLowerCase rules s.documentService s.settings shown (a :: front)) :=
        fun front hfront => hfit (a :: front) (List.cons_prefix_cons.mpr ⟨rfl, hfront⟩)
      cases a with
      | notification notification =>
          cases hm
          have hkept' := hkept.handle notification
          have huri : ShownByUri (getContext toLowerCase rules
              (s.documentService.handle notification).1 s.settings) :=
            shownByUri_getContext hkept' s.settings
          exact ih hkept' (shows_foldl hcache huri hshows _)
            (complete_handle hcache huri hshows h notification (hlater [] List.nil_prefix))
            hlater hrest
      | configChange settings =>
          cases hm
          exact ih (s := { s with settings }) hkept hshows h hlater hrest
      | getItemWithContent id =>
          cases hm
          exact ih (s := { s with openFiles := cache.get id s.openFiles }) hkept
            (hcache.shows_get hshows id) (hcache.complete_get hshows h id) hlater hrest

end Cache

/-! ## The documents of the contexts -/

/-- A document of which a context is shown is open, and the context was computed from it as it is
now, with settings that were in force at some time. -/
def Current (toLowerCase : JsString → JsString) (rules : List Redaction.IGitleaksRule)
    (inForce : ContextSettings → Prop) (documentService : DefaultDocumentService)
    (shown : String → Option IDocContext) : Prop :=
  ∀ uri context, shown uri = some context →
    ∃ settings, inForce settings ∧
      getContext toLowerCase rules documentService settings uri = some context

section

variable {inForce : ContextSettings → Prop} {documentService : DefaultDocumentService}
  {settings : ContextSettings}

theorem getContext_congr {documentService' : DefaultDocumentService} {uri : String}
    (h : documentService'.documents.get uri = documentService.documents.get uri) :
    getContext toLowerCase rules documentService' settings uri =
      getContext toLowerCase rules documentService settings uri := by
  rw [getContext, getContext, DefaultDocumentService.getDocument,
    DefaultDocumentService.getDocument, h]

/-- Whether there is a context depends on the document alone, if the redaction throws in no text. -/
theorem getContext_isSome
    (hredacts : ∀ enabled context, (Redaction.transform toLowerCase rules enabled context).isSome)
    {uri : String} :
    (getContext toLowerCase rules documentService settings uri).isSome ↔
      (documentService.getDocument uri).isSome := by
  rw [getContext]
  cases documentService.getDocument uri with
  | none => rfl
  | some document => exact iff_of_true (hredacts _ _) rfl

/-- What a document's own event shows is its context, and it had one before only if it has one
now. -/
theorem Current.of_event
    (hredacts : ∀ enabled context, (Redaction.transform toLowerCase rules enabled context).isSome)
    (hsettings : inForce settings) {uri : String} {context : IDocContext}
    (hold : ∀ context, shown uri = some context → (documentService.getDocument uri).isSome)
    (hshown : (getContext toLowerCase rules documentService settings uri).or (shown uri) =
      some context) :
    ∃ settings, inForce settings ∧
      getContext toLowerCase rules documentService settings uri = some context := by
  refine ⟨settings, hsettings, ?_⟩
  rcases Option.or_eq_some_iff.mp hshown with hcontext | ⟨hnone, hcontext⟩
  · exact hcontext
  · have hsome : (getContext toLowerCase rules documentService settings uri).isSome :=
      (getContext_isSome hredacts).mpr (hold context hcontext)
    rw [hnone] at hsome
    cases hsome

/-- One notification, if the redaction throws in no text. -/
theorem Current.handle
    (hredacts : ∀ enabled context, (Redaction.transform toLowerCase rules enabled context).isSome)
    (hkept : documentService.KeptByUri)
    (hcurrent : Current toLowerCase rules inForce documentService shown)
    (hsettings : inForce settings) (notification : DocumentNotification) :
    Current toLowerCase rules inForce (documentService.handle notification).1
      ((documentService.handle notification).2.foldl
        (shownAfter (getContext toLowerCase rules (documentService.handle notification).1 settings))
        shown) := by
  intro uri context hshown
  have hother : (documentService.handle notification).1.documents.get uri =
      documentService.documents.get uri → shown uri = some context →
      ∃ settings, inForce settings ∧ getContext toLowerCase rules
        (documentService.handle notification).1 settings uri = some context := by
    intro hget hbefore
    obtain ⟨settings', hsettings', hcontext⟩ := hcurrent uri context hbefore
    exact ⟨settings', hsettings', (getContext_congr hget).trans hcontext⟩
  have hopen : ∀ context, shown uri = some context →
      (documentService.getDocument uri).isSome := by
    intro context hcontext
    obtain ⟨settings', -, hsome⟩ := hcurrent uri context hcontext
    exact (getContext_isSome hredacts).mp (Option.isSome_iff_exists.mpr ⟨context, hsome⟩)
  rcases documentService.handle_cases notification with
    ⟨document, before, hdocuments, hchanges, hbefore⟩ |
      ⟨uri', document, hdocument, hdocuments, hchanges⟩ | ⟨hdocuments, hchanges⟩
  · rw [hchanges, List.foldl_append, List.foldl_cons, List.foldl_nil] at hshown
    by_cases huri : uri = document.uri
    · subst huri
      rw [shownAfter_self (by simp) (by simp)] at hshown
      apply Current.of_event hredacts hsettings _ hshown
      intro _ _
      rw [DefaultDocumentService.getDocument, hdocuments, OrderedMap.get_set_self]
      rfl
    · rw [shownAfter_of_ne huri, foldl_shownAfter_of_ne] at hshown
      · apply hother _ hshown
        rw [hdocuments, OrderedMap.get_set_other _ _ huri]
      · intro change hchange
        rw [(hbefore change hchange).1]
        exact huri
  · have huri' := hkept uri' document hdocument
    rw [hchanges, List.foldl_cons, List.foldl_nil] at hshown
    by_cases huri : uri = document.uri
    · have hclosed : shownAfter (getContext toLowerCase rules
          (documentService.handle notification).1 settings) shown ⟨document, .onDidClose⟩ uri =
          none := by
        rw [huri]
        exact Function.update_self _ _ _
      rw [hclosed] at hshown
      cases hshown
    · rw [shownAfter_of_ne huri] at hshown
      apply hother _ hshown
      rw [hdocuments, OrderedMap.get_delete, if_neg (huri' ▸ huri)]
  · have hsame : (documentService.handle notification).1.documents.get uri =
        documentService.documents.get uri := by rw [hdocuments]
    rcases hchanges with hchanges | ⟨document, handlerType, htype, hchanges⟩
    · rw [hchanges] at hshown
      exact hother hsame hshown
    · rw [hchanges, List.foldl_cons, List.foldl_nil] at hshown
      by_cases huri : uri = document.uri
      · subst huri
        rw [shownAfter_self (by grind) (by grind)] at hshown
        apply Current.of_event hredacts hsettings _ hshown
        intro context' hcontext'
        rw [DefaultDocumentService.getDocument, hsame]
        exact hopen context' hcontext'
      · rw [shownAfter_of_ne huri] at hshown
        exact hother hsame hshown

end

theorem Current.run (inForce : ContextSettings → Prop)
    (hredacts : ∀ enabled context, (Redaction.transform toLowerCase rules enabled context).isSome)
    (hkept : s.documentService.KeptByUri)
    (hcurrent : Current toLowerCase rules inForce s.documentService shown)
    (hsettings : inForce s.settings) {as : List OpenTabsEvent}
    (has : ∀ settings, OpenTabsEvent.configChange settings ∈ as → inForce settings)
    (hrun : run (step toLowerCase rules) s as = some t) :
    Current toLowerCase rules inForce t.documentService
      (shownContexts toLowerCase rules s.documentService s.settings shown as) := by
  induction as generalizing s shown with
  | nil =>
      cases hrun
      exact hcurrent
  | cons a as ih =>
      rw [run_cons, Option.bind_eq_some_iff] at hrun
      obtain ⟨m, hm, hrest⟩ := hrun
      have has' : ∀ settings, OpenTabsEvent.configChange settings ∈ as → inForce settings :=
        fun settings h => has settings (List.mem_cons_of_mem a h)
      cases a with
      | notification notification =>
          cases hm
          have hcurrent' := hcurrent.handle hredacts hkept hsettings notification
          exact ih (s := { s with
            documentService := (s.documentService.handle notification).1, openFiles := _ })
            (hkept.handle notification) hcurrent' hsettings has' hrest
      | configChange settings =>
          cases hm
          exact ih (s := { s with settings }) hkept hcurrent (has settings List.mem_cons_self)
            has' hrest
      | getItemWithContent id =>
          cases hm
          exact ih (s := { s with openFiles := cache.get id s.openFiles }) hkept hcurrent hsettings
            has' hrest

theorem exists_step (toLowerCase : JsString → JsString) (rules : List Redaction.IGitleaksRule)
    (s : OpenTabs cache) (a : OpenTabsEvent) : ∃ t, step toLowerCase rules s a = some t := by
  cases a <;> exact ⟨_, rfl⟩

theorem exists_run_of_new (cache : LruCache String IDocContext)
    (toLowerCase : JsString → JsString) (rules : List Redaction.IGitleaksRule)
    (settings : ContextSettings) (as : List OpenTabsEvent) :
    ∃ s : OpenTabs cache, run (step toLowerCase rules) (new settings) as = some s := by
  obtain ⟨s, hrun, -⟩ := exists_run (I := fun _ (_ : OpenTabs cache) => True)
    (s := new settings) trivial
    (fun _ s a _ => (exists_step toLowerCase rules s a).imp fun _ h => ⟨h, trivial⟩) as
  exact ⟨s, hrun⟩

/-! ## The open tabs after a run -/

/-- The contexts that are shown after these events. -/
def shownFromNew (toLowerCase : JsString → JsString) (rules : List Redaction.IGitleaksRule)
    (settings : ContextSettings) (as : List OpenTabsEvent) : String → Option IDocContext :=
  shownContexts toLowerCase rules DefaultDocumentService.new settings (fun _ => none) as

section

variable {settings : ContextSettings} {as : List OpenTabsEvent}

theorem current_of_run (hrun : run (step toLowerCase rules) (new settings) as = some s)
    (hredacts : ∀ enabled context, (Redaction.transform toLowerCase rules enabled context).isSome) :
    Current toLowerCase rules (fun settings' => settings' = settings ∨ .configChange settings' ∈ as)
      s.documentService (shownFromNew toLowerCase rules settings as) := by
  refine Current.run (s := new settings) _ hredacts DefaultDocumentService.keptByUri_new ?_
    (.inl rfl) (fun _ h => .inr h) hrun
  intro uri context h
  cases h

theorem shows_of_run {maxSize : Nat} (hcache : cache.Lawful getDocumentSize maxSize)
    (hrun : run (step toLowerCase rules) (new settings) as = some s) :
    Shows (cache.entries s.openFiles) (shownFromNew toLowerCase rules settings as) :=
  shows_run hcache (s := new settings) DefaultDocumentService.keptByUri_new (hcache.shows_new _)
    hrun

theorem complete_of_run {maxSize : Nat} (hcache : cache.Lawful getDocumentSize maxSize)
    (hfit : ∀ front, front <+: as → FitTogether getDocumentSize maxSize
      (shownFromNew toLowerCase rules settings front))
    (hrun : run (step toLowerCase rules) (new settings) as = some s) :
    Complete (cache.entries s.openFiles) (shownFromNew toLowerCase rules settings as) := by
  refine complete_run hcache (s := new settings) DefaultDocumentService.keptByUri_new
    (hcache.shows_new _) ?_ hfit hrun
  intro uri context h
  cases h

end

/-- **The open tabs.** In every run each document is in the cache at most once, and with the last
context that could be computed for it; if the redaction throws in no text, then this is the context
of an open document as it is now. As long as all these contexts fit in, none of them is missing. -/
theorem openFiles_of_run (toLowerCase : JsString → JsString)
    (rules : List Redaction.IGitleaksRule) {maxSize : Nat}
    (hcache : cache.Lawful getDocumentSize maxSize) (settings : ContextSettings)
    (as : List OpenTabsEvent) :
    ∃ s : OpenTabs cache, run (step toLowerCase rules) (new settings) as = some s ∧
      Shows (cache.entries s.openFiles) (shownFromNew toLowerCase rules settings as) ∧
      ((∀ enabled context, (Redaction.transform toLowerCase rules enabled context).isSome) →
        ∀ uri context, (uri, context) ∈ cache.entries s.openFiles →
          ∃ settings', (settings' = settings ∨ .configChange settings' ∈ as) ∧
            getContext toLowerCase rules s.documentService settings' uri = some context) ∧
      ((∀ front, front <+: as → FitTogether getDocumentSize maxSize
          (shownFromNew toLowerCase rules settings front)) →
        Complete (cache.entries s.openFiles) (shownFromNew toLowerCase rules settings as)) := by
  obtain ⟨s, hrun⟩ := exists_run_of_new cache toLowerCase rules settings as
  have hshows := shows_of_run hcache hrun
  refine ⟨s, hrun, hshows, ?_, fun hfit => complete_of_run hcache hfit hrun⟩
  intro hredacts uri context hmem
  exact current_of_run hrun hredacts uri context (hshows.of_mem _ hmem)

end OpenTabs

end

/-! ## Two documents -/

section Sample

open OpenTabs

def sampleDocument (name : String) : TextDocument :=
  lineDocument ("file:///w/" ++ name) (JsString.ofString "abcdef")

def opens (name : String) : OpenTabsEvent := .notification (.didOpen (sampleDocument name))

def sampleSettings : ContextSettings := ⟨none, true⟩

def sampleCache : LruCache String IDocContext := LruCache.ofSize getDocumentSize 20

def sampleContext (name : String) : IDocContext :=
  getDocContext (sampleDocument name) ⟨0, 0⟩ [] none

def sampleUri (name : String) : String := (sampleDocument name).uri

theorem shownFromNew_opens :
    shownFromNew id [] sampleSettings [opens "a.ts"] =
        Function.update (fun _ => none) (sampleUri "a.ts") (some (sampleContext "a.ts")) ∧
      shownFromNew id [] sampleSettings [opens "a.ts", opens "b.ts"] =
        Function.update (Function.update (fun _ => none) (sampleUri "a.ts")
          (some (sampleContext "a.ts"))) (sampleUri "b.ts") (some (sampleContext "b.ts")) := by
  have hbefore : ∀ name, ∀ change ∈ [(⟨sampleDocument name, .onDidOpen⟩ : DocumentChange)],
      change.document = sampleDocument name := by
    intro name change hchange
    rw [List.mem_singleton.mp hchange]
  have ha : shownFromNew id [] sampleSettings [opens "a.ts"] =
      Function.update (fun _ => none) (sampleUri "a.ts") (some (sampleContext "a.ts")) :=
    foldl_shownAfter_of_some (by rfl) (hbefore "a.ts")
  refine ⟨ha, ?_⟩
  rw [← ha]
  exact foldl_shownAfter_of_some (by rfl) (hbefore "b.ts")

/-- The cache has room for both documents, and has both. -/
theorem openFiles_of_run_of_two :
    ∃ s : OpenTabs sampleCache,
      run (step id []) (new sampleSettings) [opens "a.ts", opens "b.ts"] = some s ∧
      sampleCache.entries s.openFiles =
        [(sampleUri "a.ts", sampleContext "a.ts"), (sampleUri "b.ts", sampleContext "b.ts")] ∧
      Complete (sampleCache.entries s.openFiles)
        (shownFromNew id [] sampleSettings [opens "a.ts", opens "b.ts"]) := by
  have hsize : ∀ name ∈ ["a.ts", "b.ts"], getDocumentSize (sampleContext name) ≤ 6 := by
    decide +kernel
  have hnone : FitTogether getDocumentSize 0 (fun _ : String => none) := fitTogether_none
  have hone := hnone.update (sampleUri "a.ts") (hsize "a.ts" (by simp))
  have htwo := hone.update (sampleUri "b.ts") (hsize "b.ts" (by simp))
  obtain ⟨ha, hab⟩ := shownFromNew_opens
  obtain ⟨s, hrun, -, -, hcomplete⟩ := openFiles_of_run id []
    (lawful_ofSize getDocumentSize 20) sampleSettings [opens "a.ts", opens "b.ts"]
  refine ⟨s, hrun, ?_, hcomplete ?_⟩
  · cases hrun
    decide +kernel
  · intro front hfront
    rcases List.prefix_cons_iff.mp hfront with rfl | ⟨rest, rfl, hrest⟩
    · exact hnone.mono (by decide)
    · rcases List.prefix_cons_iff.mp hrest with rfl | ⟨rest', rfl, hrest'⟩
      · rw [ha]
        exact hone.mono (by decide)
      · rw [List.prefix_nil.mp hrest', hab]
        exact htwo.mono (by decide)

end Sample

end KhulnasoftLsp
