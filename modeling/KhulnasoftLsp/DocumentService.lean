import KhulnasoftLsp.DocumentTransformer
import KhulnasoftLsp.OrderedMap

/-!
# The documents of the client

`DefaultDocumentService` turns what the client says about its text documents into one kind of
event, and adds two kinds of its own: the document of the active editor, and a document that may
have changed its language. For the latter it remembers every URI that was ever opened, since a
client changes the language of a document by closing and opening it.

The texts themselves are kept by `TextDocuments` of the package `vscode-languageserver`, which
fires an event for a document that it knows, once its text is replaced or the document is gone.
-/

namespace KhulnasoftLsp

inductive TextDocumentChangeListenerType where
  | onDidOpen
  | onDidChangeContent
  | onDidSave
  | onDidClose
  | onDidSetActive
  | onDocumentLanguageChange
  deriving DecidableEq, Repr

/-- What a listener of `onDocumentChange` is called with. -/
structure DocumentChange where
  document : TextDocument
  handlerType : TextDocumentChangeListenerType

inductive DidChangeDocumentInActiveEditorParams where
  | document (document : TextDocument)
  | uri (uri : String)

inductive DocumentNotification where
  | didOpen (document : TextDocument)
  /-- The whole text is sent with each change. -/
  | didChange (document : TextDocument)
  | didSave (uri : String)
  | didClose (uri : String)
  | didChangeDocumentInActiveEditor (params : DidChangeDocumentInActiveEditorParams)

structure DefaultDocumentService where
  documents : OrderedMap String TextDocument
  documentsLanguageMap : OrderedMap String String

namespace DefaultDocumentService

def new : DefaultDocumentService := ⟨OrderedMap.empty, OrderedMap.empty⟩

def getDocument (uri : String) (s : DefaultDocumentService) : Option TextDocument :=
  s.documents.get uri

/-- `#handleDocumentLanguageChange` -/
def handleDocumentLanguageChange (document : TextDocument) (s : DefaultDocumentService) :
    DefaultDocumentService × List DocumentChange :=
  ({ s with documentsLanguageMap := s.documentsLanguageMap.set document.uri document.languageId },
    if (s.documentsLanguageMap.get document.uri).isSome then
      [⟨document, .onDocumentLanguageChange⟩]
    else [])

/-- The document of `param`, if there is one. -/
def activeDocument (s : DefaultDocumentService) :
    DidChangeDocumentInActiveEditorParams → Option TextDocument
  | .document document => some document
  | .uri uri => s.getDocument uri

/-- The service after a notification, and the events that it emits, in order. -/
def handle (s : DefaultDocumentService) :
    DocumentNotification → DefaultDocumentService × List DocumentChange
  | .didOpen document =>
    let s := { s with documents := s.documents.set document.uri document }
    let (s, languageChange) := s.handleDocumentLanguageChange document
    (s, ⟨document, .onDidOpen⟩ :: languageChange ++ [⟨document, .onDidChangeContent⟩])
  | .didChange document =>
    match s.documents.get document.uri with
    | some old =>
      let document := { document with languageId := old.languageId }
      ({ s with documents := s.documents.set document.uri document },
        [⟨document, .onDidChangeContent⟩])
    | none => (s, [])
  | .didSave uri =>
    (s, ((s.documents.get uri).map fun document => ⟨document, .onDidSave⟩).toList)
  | .didClose uri =>
    match s.documents.get uri with
    | some document =>
      ({ s with documents := s.documents.delete uri }, [⟨document, .onDidClose⟩])
    | none => (s, [])
  | .didChangeDocumentInActiveEditor params =>
    (s, ((s.activeDocument params).map fun document => ⟨document, .onDidSetActive⟩).toList)

/-- What a notification can do: give a document its text, take one away, or say that something has
happened to one. -/
theorem handle_cases (s : DefaultDocumentService) (notification : DocumentNotification) :
    (∃ document before,
      (s.handle notification).1.documents = s.documents.set document.uri document ∧
      (s.handle notification).2 = before ++ [⟨document, .onDidChangeContent⟩] ∧
      ∀ change ∈ before, change.document = document ∧ change.handlerType ≠ .onDidClose) ∨
    (∃ uri document, s.documents.get uri = some document ∧
      (s.handle notification).1.documents = s.documents.delete uri ∧
      (s.handle notification).2 = [⟨document, .onDidClose⟩]) ∨
    (s.handle notification).1.documents = s.documents ∧
      ((s.handle notification).2 = [] ∨
        ∃ document handlerType, (handlerType = .onDidSave ∨ handlerType = .onDidSetActive) ∧
          (s.handle notification).2 = [⟨document, handlerType⟩]) := by
  cases notification with
  | didOpen document =>
      refine .inl ⟨document, ⟨document, .onDidOpen⟩ :: _, rfl, rfl, ?_⟩
      intro change hchange
      rw [List.mem_cons] at hchange
      rcases hchange with rfl | hchange
      · exact ⟨rfl, by simp⟩
      · split at hchange
        · obtain rfl := List.mem_singleton.mp hchange
          exact ⟨rfl, by simp⟩
        · cases hchange
  | didChange document =>
      rw [handle]
      split
      · next old hold =>
        exact .inl ⟨{ document with languageId := old.languageId }, [], rfl, rfl, by simp⟩
      · exact .inr (.inr ⟨rfl, .inl rfl⟩)
  | didSave uri =>
      rw [handle]
      cases s.documents.get uri with
      | none => exact .inr (.inr ⟨rfl, .inl rfl⟩)
      | some document => exact .inr (.inr ⟨rfl, .inr ⟨document, _, .inl rfl, rfl⟩⟩)
  | didClose uri =>
      rw [handle]
      split
      · next document hdocument => exact .inr (.inl ⟨uri, document, hdocument, rfl, rfl⟩)
      · exact .inr (.inr ⟨rfl, .inl rfl⟩)
  | didChangeDocumentInActiveEditor params =>
      rw [handle]
      cases s.activeDocument params with
      | none => exact .inr (.inr ⟨rfl, .inl rfl⟩)
      | some document => exact .inr (.inr ⟨rfl, .inr ⟨document, _, .inr rfl, rfl⟩⟩)

/-- A document is kept under its URI. -/
def KeptByUri (s : DefaultDocumentService) : Prop :=
  ∀ uri document, s.documents.get uri = some document → document.uri = uri

theorem keptByUri_new : new.KeptByUri := by
  intro uri document h
  cases h

theorem KeptByUri.handle {s : DefaultDocumentService} (h : s.KeptByUri)
    (notification : DocumentNotification) : (s.handle notification).1.KeptByUri := by
  intro uri other hother
  rcases s.handle_cases notification with
    ⟨document, before, hdocuments, -⟩ | ⟨uri', document, -, hdocuments, -⟩ | ⟨hdocuments, -⟩
  · rw [hdocuments, OrderedMap.get_set] at hother
    split at hother
    · next huri =>
      cases hother
      exact huri.symm
    · exact h uri other hother
  · rw [hdocuments, OrderedMap.get_delete] at hother
    split at hother
    · cases hother
    · exact h uri other hother
  · rw [hdocuments] at hother
    exact h uri other hother

end DefaultDocumentService

end KhulnasoftLsp
