import Zemo.Organizer.Inputs

set_option autoImplicit false

/-! # One-click organization

The decision for one file when a user has a whole folder organized with one click: programs and
shortcuts stay where they are, everything else goes to a folder for its kind. Names and paths are
looked at in lower case. -/

namespace Zemo.Organizer

/-- Well-known folders of a user. -/
inductive ConsumerRootKind where
  | desktop
  | downloads
  | documents
  | pictures
  | videos
  | music
  | unknown
deriving DecidableEq, Repr

def ConsumerRootKind.asStr : ConsumerRootKind → String
  | .desktop => "desktop"
  | .downloads => "downloads"
  | .documents => "documents"
  | .pictures => "pictures"
  | .videos => "videos"
  | .music => "music"
  | .unknown => "unknown"

structure ConsumerDecision where
  destination : List String
  leaveInPlace : Bool
  needsReview : Bool
  reasonCode : String
  explanation : String
deriving DecidableEq

/-- `CONSUMER_MAX_DESTINATION_DEPTH`. -/
def consumerMaxDestinationDepth : Nat := 6

/-! ## Paths -/

/-- `source_parent_components` of the consumer policy. -/
def consumerParentComponents (relativePath : String) : List String :=
  ((splitAny (fun c => c = '/' || c = '\\') relativePath).filter (· ≠ "")).dropLast

/-- `is_loose_file`. -/
def isLooseFile (relativePath : String) : Bool := consumerParentComponents relativePath = []

/-- The components of a path that are neither empty nor dots. -/
def normalComponents (path : String) : List String :=
  (splitAny (· = '/') path).filter fun part => part ∉ ["", ".", ".."]

/-- `extension_of`. -/
def extensionOf (filename : String) : Option String :=
  let components := (splitAny (· = '/') filename).filter fun part => part ∉ ["", "."]
  let name := components.getLast?.filter (· ≠ "..")
  let parts := name.bind (rsplitOnce '.')
  (parts.filter (·.1 ≠ "")).map fun (_, ending) => toAsciiLowercase ending

/-! ## Kinds of files -/

/-- `is_program_or_system`. -/
def isProgramOrSystem (relativePath filename : String) (ending : Option String) : Bool :=
  ((normalComponents relativePath).any fun component =>
    let lower := toAsciiLowercase component
    endsWith lower ".app" || endsWith lower ".framework"
      || lower ∈ ["program files", "program files (x86)", "windows", "system32", "syswow64",
        "applications", "library", "system", "appdata", "node_modules", "contents"])
    || (let name := toAsciiLowercase filename; containsText name ".app/" || endsWith name ".app")
    || ending.any (· ∈ ["dll", "sys", "dylib", "so", "bundle", "framework"])

/-- `looks_system_msi`. -/
def looksSystemMsi (filenameLower : String) : Bool :=
  containsAny filenameLower ["kb", "hotfix", "update"] || startsWith filenameLower "windows"

/-- `is_downloaded_installer`. -/
def isDownloadedInstaller (filenameLower : String) (ending : Option String) : Bool :=
  let installerName := containsAny filenameLower ["setup", "install", "installer"]
    || startsWith filenameLower "setup" || containsAny filenameLower ["-setup", "_setup"]
  match ending with
  | none => false
  | some ending =>
      if ending ∈ ["dmg", "pkg"] then true
      else if ending = "msi" then installerName || !looksSystemMsi filenameLower
      else ending = "exe" && installerName

/-- `is_project_manifest`. -/
def isProjectManifest (filenameLower : String) : Bool :=
  filenameLower ∈ ["package.json", "package-lock.json", "pnpm-lock.yaml", "yarn.lock",
    "cargo.toml", "cargo.lock", "pyproject.toml", "requirements.txt", "poetry.lock", "go.mod",
    "go.sum", "pom.xml", "build.gradle", "build.gradle.kts", "gradle.properties",
    "composer.json", "composer.lock"]

/-- `is_unknown_executable`. -/
def isUnknownExecutable (ending : Option String) : Bool :=
  ending.any (· ∈ ["exe", "com", "scr", "cpl"])

/-- `is_desktop_shortcut`. -/
def isDesktopShortcut (ending : Option String) (relativePath : String) : Bool :=
  isLooseFile relativePath && ending.any (· ∈ ["lnk", "url", "webloc", "desktop", "alias"])

/-- `is_image_extension`. -/
def isImageExtension (ending : Option String) : Bool :=
  ending.any (· ∈ ["jpg", "jpeg", "png", "gif", "webp", "heic", "heif", "bmp", "tif", "tiff"])

/-- `is_video_extension`. -/
def isVideoExtension (ending : Option String) : Bool :=
  ending.any (· ∈ ["mp4", "mov", "m4v", "avi", "mkv", "webm", "wmv"])

/-- `is_archive_extension`. -/
def isArchiveExtension (ending : Option String) : Bool :=
  ending.any (· ∈ ["zip", "rar", "7z", "tar", "gz", "tgz", "bz2"])

/-- `is_document_extension`. -/
def isDocumentExtension (ending : Option String) : Bool :=
  ending.any (· ∈ ["pdf", "doc", "docx", "txt", "rtf", "odt", "pages", "xls", "xlsx", "csv", "ppt",
    "pptx", "md"])

/-- `is_document_type`. -/
def isDocumentType (documentType : Option String) : Bool :=
  documentType.any (· ∈ ["invoice", "quote", "contract", "receipt", "tax_document",
    "insurance_document", "bank_statement", "letter", "note"])

/-! ## Destinations -/

/-- `document_leaf_segments`. -/
def documentLeafSegments (nameLower : String) (documentType : Option String) : List String :=
  if documentType.any (· ∈ ["invoice", "receipt"])
      || containsAny nameLower ["invoice", "facture", "receipt", "reçu", "recu", "quittance"] then
    ["Administratif", "Factures"]
  else if documentType = some "bank_statement"
      || containsAny nameLower ["bank", "banque", "releve", "relevé", "iban", "rib"] then
    ["Administratif", "Banque"]
  else if documentType = some "insurance_document"
      || containsAny nameLower ["assurance", "insurance", "mutuelle"] then
    ["Administratif", "Assurances"]
  else if documentType = some "tax_document"
      || containsAny nameLower ["tax", "impot", "impôt", "fiscal", "fisc"] then
    ["Administratif", "Impôts"]
  else if documentType = some "contract"
      || containsAny nameLower ["contrat", "contract", "cerfa", "admin"] then
    ["Administratif"]
  else if containsAny nameLower ["school", "cours", "etude", "étude", "homework", "devoir",
      "université", "universite"] then
    ["Études"]
  else if containsAny nameLower ["work", "travail", "meeting", "reunion", "réunion", "projet",
      "client", "chantier", "devis"] then
    ["Travail"]
  else ["Personnel"]

/-- `document_destination`. -/
def documentDestination (rootKind : ConsumerRootKind) (nameLower : String)
    (documentType : Option String) : List String :=
  let leaf := documentLeafSegments nameLower documentType
  match rootKind with
  | .documents => leaf
  | _ => "Documents" :: leaf

/-- `image_destination`. -/
def imageDestination (rootKind : ConsumerRootKind) (leaf : String) : List String :=
  match rootKind with
  | .pictures => [leaf]
  | _ => ["Images", leaf]

/-- `video_destination`. -/
def videoDestination : ConsumerRootKind → List String
  | .videos => []
  | _ => ["Vidéos"]

/-- `is_meaningful_folder_anchor`. -/
def EngineContext.isMeaningfulFolderAnchor (engine : EngineContext) (component : String) : Bool :=
  containsAny (engine.toLowercase (trim component))
    ["client", "customer", "chantier", "projet", "project", "travail", "work", "fournisseur",
      "supplier", "administratif", "facture", "invoice", "banque", "bank", "assurance",
      "insurance", "impôt", "impot", "tax", "étude", "etude", "cours", "school", "personnel",
      "personal", "photos", "images", "vidéo", "video"]

/-- The folders of a path put under a destination, as far as there is room. -/
def extendDestination (maximumDepth : Nat) (destination : List String) :
    List String → List String
  | [] => destination
  | component :: rest =>
      if maximumDepth ≤ destination.length then destination
      else
        let trimmed := trim component
        if trimmed = "" ∨ destination.any (eqIgnoreAsciiCase · trimmed) = true then
          extendDestination maximumDepth destination rest
        else extendDestination maximumDepth (destination ++ [trimmed]) rest

/-- `with_meaningful_folder_context`. -/
def EngineContext.withMeaningfulFolderContext (engine : EngineContext) (destination : List String)
    (sourceRelativePath : String) (maximumDepth : Nat) : List String :=
  if maximumDepth ≤ destination.length then destination.take maximumDepth
  else
    let parents := consumerParentComponents sourceRelativePath
    extendDestination maximumDepth destination
      (parents.dropWhile fun component => !engine.isMeaningfulFolderAnchor component)

/-- `exact_destination`. -/
def exactDestination (current destination : List String) : Bool := pathsEqual current destination

/-- `maybe_preserve_existing`. -/
def maybePreserveExisting (sourceRelativePath : String) (decision : ConsumerDecision) :
    ConsumerDecision :=
  let current := consumerParentComponents sourceRelativePath
  if decision.leaveInPlace ∨ decision.destination = [] then decision
  else if exactDestination current decision.destination then
    { decision with
      leaveInPlace := true
      destination := current
      reasonCode := "already_organized"
      explanation := "Le fichier est déjà exactement dans le bon dossier." }
  else decision

/-! ## The decision -/

/-- `leave_in_place`. -/
def leaveInPlace (reasonCode explanation : String) : ConsumerDecision where
  destination := []
  leaveInPlace := true
  needsReview := false
  reasonCode
  explanation

/-- The decision to put a file into a folder. -/
def putInto (destination : List String) (reasonCode explanation : String) : ConsumerDecision where
  destination
  leaveInPlace := false
  needsReview := false
  reasonCode
  explanation

/-- `classify_media_or_archive`. -/
def classifyMediaOrArchive (rootKind : ConsumerRootKind) (ending : Option String)
    (nameLower : String) (documentType : Option String) : Option ConsumerDecision :=
  if isImageExtension ending || documentType.any (· ∈ ["photo", "image"]) then
    let screenshot := containsAny nameLower ["screenshot", "capture", "screen shot"]
      || startsWith nameLower "capture d"
    if screenshot then
      some (putInto (imageDestination rootKind "Captures d’écran") "image"
        "Capture d’écran classée dans Images.")
    else if rootKind = .downloads then
      some (putInto (imageDestination rootKind "Images téléchargées") "image"
        "Image téléchargée classée dans Images.")
    else
      some (putInto (imageDestination rootKind "Photos") "image" "Photo classée dans Images.")
  else if isVideoExtension ending || documentType = some "video" then
    some (putInto (videoDestination rootKind) "video" "Vidéo classée dans Vidéos.")
  else if isArchiveExtension ending || documentType = some "archive" then
    some (putInto ["Archives"] "archive" "Archive classée dans Archives.")
  else none

/-- `decide_consumer_organization`. -/
def EngineContext.decideConsumerOrganization (engine : EngineContext)
    (sourceRelativePath sourceName : String) (rootKind : ConsumerRootKind)
    (documentType : Option String) : ConsumerDecision :=
  let ending := extensionOf sourceName
  let nameLower := engine.toLowercase sourceName
  let pathContext := engine.toLowercase (replaceText sourceRelativePath "\\" "/")
  let classificationContext := pathContext ++ " " ++ nameLower
  let settle := fun decision : ConsumerDecision =>
    maybePreserveExisting sourceRelativePath
      { decision with
        destination := engine.withMeaningfulFolderContext decision.destination sourceRelativePath
          consumerMaxDestinationDepth }
  if isProjectManifest nameLower && isLooseFile sourceRelativePath then
    putInto ["Développement", "Fichiers projet"] "project_manifest"
      "Fichier de projet classé dans Développement."
  else if isProgramOrSystem sourceRelativePath sourceName ending then
    leaveInPlace "program_protected" "Les programmes et composants système restent en place."
  else if isDesktopShortcut ending sourceRelativePath then
    leaveInPlace "desktop_shortcut"
      "Les raccourcis du Bureau restent en place pour ne pas casser vos lancements."
  else if isDownloadedInstaller nameLower ending then
    putInto ["Installateurs"] "installer"
      "Fichier d’installation téléchargé, rangé à part des applications."
  else if isUnknownExecutable ending then
    leaveInPlace "uncertain_program"
      "Ce fichier ressemble à un programme. ZEMO l’a laissé en place."
  else if isProjectManifest nameLower then
    leaveInPlace "project_manifest"
      "Ce fichier peut définir un projet ou un outil de développement. ZEMO l’a laissé en place."
  else
    match classifyMediaOrArchive rootKind ending classificationContext documentType with
    | some decision => settle decision
    | none =>
        if isDocumentExtension ending || isDocumentType documentType then
          settle (putInto (documentDestination rootKind classificationContext documentType)
            "document" "Document personnel classé dans une arborescence compréhensible.")
        else if isLooseFile sourceRelativePath then
          putInto ["À vérifier"] "uncertain"
            "Type incertain : proposé dans À vérifier plutôt que deviné."
        else
          leaveInPlace "uncertain_nested"
            "Type de fichier imbriqué incertain : laissé en place par prudence."

end Zemo.Organizer
