import Zemo.Organizer.Inputs

set_option autoImplicit false

/-! # Folders and names of the professional mode

Where a file of known context, kind and identities belongs, and the name it gets when its own says
nothing. Folders that only sort (years, kinds) are marked as optional: they can be left out again
when they would hold a single file. -/

namespace Zemo.Organizer

/-! ## Words -/

/-- `localized_folder`. -/
def localizedFolder (key language : String) : String :=
  if language ≠ "fr" then
    match key with
    | "administrative" => "Administrative"
    | "taxes" => "Taxes"
    | "insurance" => "Insurance"
    | "banking" => "Banking"
    | "photos" => "Photos"
    | "videos" => "Videos"
    | "archives" => "Archives"
    | "clients" => "Clients"
    | "projects" => "Projects"
    | "suppliers" => "Suppliers"
    | _ => key
  else
    match key with
    | "administrative" => "Administratif"
    | "taxes" => "Impôts"
    | "insurance" => "Assurances"
    | "banking" => "Banque"
    | "photos" => "Photos"
    | "videos" => "Vidéos"
    | "archives" => "Archives"
    | "clients" => "Clients"
    | "projects" => "Projets"
    | "suppliers" => "Fournisseurs"
    | _ => key

/-- `localized_type_folder`. -/
def localizedTypeFolder (value language : String) : String :=
  if language ≠ "fr" then value
  else
    match value with
    | "Supplier Invoices" => "Factures fournisseurs"
    | "Invoices" => "Factures"
    | "Quotes" => "Devis"
    | "Contracts" => "Contrats"
    | "Receipts" => "Reçus"
    | "Photos" => "Photos"
    | "Videos" => "Vidéos"
    | "Purchase Orders" => "Bons de commande"
    | "Delivery Notes" => "Bons de livraison"
    | "Taxes" => "Impôts"
    | "Bank Statements" => "Relevés bancaires"
    | "Payroll" => "Paie"
    | "Legal" => "Juridique"
    | "Accounting" => "Comptabilité"
    | "HR" => "Ressources humaines"
    | "Administration" => "Administratif"
    | _ => value

/-- `type_folder`. -/
def typeFolder (documentType : String) (supplierInsideProject : Bool) : Option String :=
  match documentType with
  | "invoice" => some (if supplierInsideProject then "Supplier Invoices" else "Invoices")
  | "quote" => some "Quotes"
  | "contract" | "employment_contract" => some "Contracts"
  | "receipt" => some "Receipts"
  | "photo" => some "Photos"
  | "video" => some "Videos"
  | "purchase_order" => some "Purchase Orders"
  | "delivery_note" => some "Delivery Notes"
  | "tax_document" => some "Taxes"
  | "bank_statement" => some "Bank Statements"
  | "payslip" => some "Payroll"
  | "legal_document" => some "Legal"
  | "administrative_document" => some "Administration"
  | _ => none

/-- `business_area`. -/
def businessArea (documentType : String) : String :=
  if documentType ∈ ["invoice", "receipt", "purchase_order", "delivery_note", "bank_statement",
      "tax_document"] then "Accounting"
  else if documentType ∈ ["contract", "legal_document"] then "Legal"
  else if documentType ∈ ["payslip", "employment_contract", "cv"] then "HR"
  else "Administration"

/-- `document_type_label`. -/
def documentTypeLabel (documentType : String) : String := replaceText documentType "_" " "

/-- `document_type_singular`. -/
def documentTypeSingular (documentType : String) : String :=
  match documentType with
  | "invoice" => "Invoice"
  | "quote" => "Quote"
  | "contract" => "Contract"
  | "receipt" => "Receipt"
  | "purchase_order" => "Purchase-Order"
  | "delivery_note" => "Delivery-Note"
  | "tax_document" => "Tax"
  | "bank_statement" => "Bank-Statement"
  | "payslip" => "Payslip"
  | "photo" => "Photo"
  | "video" => "Video"
  | _ => "Document"

/-- `useful_year`. -/
def usefulYear (input : OrganizationSourceInput) (documentType : String) (includeYear : Bool) :
    Option String :=
  if includeYear = false ∨ documentType ∉ ["invoice", "contract", "receipt", "tax_document",
      "payslip", "bank_statement", "photo", "video"] then none
  else
    match input.issueDate with
    | none => none
    | some signal =>
        if signal.isHighConfidence && validIsoDate signal.value then some (takeChars 4 signal.value)
        else none

/-! ## The destination -/

/-- Folders, and for each whether it is optional. -/
abbrev Folders := List (String × Bool)

/-- The folders of a personal file. -/
def personalFolders (documentType : String) (preferences : OrganizationPreferences)
    (year : Option String) : Folders :=
  let word := fun key => localizedFolder key preferences.namingLanguage
  let folders := match documentType with
    | "tax_document" => [word "administrative", word "taxes"]
    | "insurance_document" => [word "administrative", word "insurance"]
    | "bank_statement" => [word "administrative", word "banking"]
    | "photo" => [word "photos"]
    | "video" => [word "videos"]
    | "archive" => [word "archives"]
    | _ => [word "administrative"]
  (preferences.personalRootName :: folders).map (·, false) ++ year.toList.map (·, true)

/-- The folders of a business file, and the reasons for them. -/
def businessFolders (documentType : String) (customer supplier project : Option String)
    (preferences : OrganizationPreferences) (year : Option String) (preferProjectLocation : Bool) :
    Folders × List OrganizationReason :=
  let word := fun key => (localizedFolder key preferences.namingLanguage, false)
  let kind := typeFolder documentType
    (preferences.supplierInvoicesInsideProjects && supplier.isSome && project.isSome)
  let kindFolder := kind.toList.map fun folder =>
    (localizedTypeFolder folder preferences.namingLanguage, true)
  let yearFolder := year.toList.map (·, true)
  let root := (preferences.businessRootName, false)
  let projectPhoto := documentType = "photo" && preferences.keepPhotosInsideProjects
    && project.isSome
  let supplierInvoiceProject := documentType = "invoice"
    && preferences.supplierInvoicesInsideProjects && supplier.isSome && project.isSome
  let forceSupplierProject := supplierInvoiceProject
    && (!preferences.clientFirst || customer.isNone)
  let reasons := if supplierInvoiceProject then
      [reason "user_preference"
        "Linked supplier invoices stay inside their project because of your preference."
        (some "supplier_invoices_inside_projects")]
    else []
  if (preferProjectLocation || projectPhoto || forceSupplierProject) && project.isSome then
    (root :: word "projects" :: (project.getD "", false) :: kindFolder ++ yearFolder,
      reasons ++ if projectPhoto then
        [reason "user_preference"
          "Project photos stay inside their linked project because of your preference."
          (some "keep_photos_inside_projects")] else [])
  else if preferences.clientFirst then
    match customer, project, supplier with
    | some customer, project, _ =>
        (root :: word "clients" :: (customer, false) :: project.toList.map (·, false)
            ++ yearFolder ++ kindFolder,
          reasons ++ [reason "customer_identity" ("Customer: " ++ customer ++ ".") none]
            ++ project.toList.map fun project =>
              reason "project_identity" ("Project: " ++ project ++ ".") none)
    | none, some project, _ =>
        (root :: word "projects" :: (project, false) :: yearFolder ++ kindFolder, reasons)
    | none, none, some supplier =>
        (root :: word "suppliers" :: (supplier, false) :: yearFolder ++ kindFolder,
          reasons ++ [reason "supplier_identity" ("Supplier: " ++ supplier ++ ".") none])
    | none, none, none =>
        (root :: (localizedTypeFolder (businessArea documentType) preferences.namingLanguage, false)
            :: yearFolder ++ kindFolder, reasons)
  else
    (root :: (localizedTypeFolder (kind.getD (businessArea documentType))
          preferences.namingLanguage, false)
        :: (customer.or supplier).toList.map (·, false) ++ project.toList.map (·, false)
          ++ yearFolder, reasons)

/-- `destination_policy`. -/
def destinationPolicy (context documentType : String) (customer supplier project : Option String)
    (input : OrganizationSourceInput) (preferences : OrganizationPreferences)
    (includeYearFolders preferProjectLocation : Bool) : Folders × List OrganizationReason :=
  let year := usefulYear input documentType includeYearFolders
  if context = "personal" then (personalFolders documentType preferences year, [])
  else if context = "business" then
    businessFolders documentType customer supplier project preferences year preferProjectLocation
  else ([("TO_REVIEW", false)], [])

/-! ## The name -/

/-- `is_generic_filename`. -/
def isGenericFilename (filename : String) : Bool :=
  let stem := toAsciiLowercase (((rsplitOnce '.' filename).map (·.1)).getD filename)
  (["scan", "img", "image", "document", "file"].any fun start =>
      stem = start || startsWith stem (start ++ "_") || startsWith stem (start ++ "-"))
    || stem ∈ ["facture", "invoice"]
    || stem.utf8ByteSize / 2 ≤ (stem.toList.filter Char.isDigit).length

/-- The signal, when it can be relied on. -/
def highConfidence (signal : Option ProposalSignal) : Option ProposalSignal :=
  signal.filter (·.isHighConfidence)

/-- `proposed_filename`. -/
def proposedFilename (input : OrganizationSourceInput) (documentType : String)
    (customer supplier : Option String) (confidenceLevel : ProposalConfidenceLevel)
    (preferences : OrganizationPreferences) (policy : VirtualPathPolicy) : String :=
  let own := (policy.sanitizeMachineFilename input.sourceName).value
  if confidenceLevel ∉ [.veryHigh, .high] ∨ isGenericFilename input.sourceName = false then own
  else
    let date := (highConfidence input.issueDate).filter fun signal => validIsoDate signal.value
    let identifier := highConfidence input.identifier
    let amount := (highConfidence input.amount).map fun amount =>
      amount.value ++ ((highConfidence input.currency).map (·.value)).getD ""
    let party := supplier.or customer
    let components := ((date.map (·.value)).toList ++ party.toList
      ++ (if documentType ≠ "unknown" then [documentTypeSingular documentType] else [])
      ++ (identifier.map (·.value)).toList ++ amount.toList).take 5
    if components.length < 2 then own
    else
      let parts := rsplitOnce '.' input.sourceName
      let ending := (parts.filter fun (stem, ending) => stem ≠ "" && ending ≠ "").map (·.2)
      let originalStem := (parts.map (·.1)).getD input.sourceName
      let project := ((input.strongestRelationship "file_project").map (·.displayName)).getD ""
      let rendered := [("{date}", (date.map (·.value)).getD ""), ("{party}", party.getD ""),
          ("{document_type}", documentTypeSingular documentType),
          ("{identifier}", (identifier.map (·.value)).getD ""), ("{project}", project),
          ("{original}", originalStem)].foldl
        (fun text (pattern, value) => replaceText text pattern value) preferences.renameTemplate
      let stem := "_".intercalate
        (((splitAny (· = '_') rendered).map trim).filter (· ≠ ""))
      let stem := if stem = "" ∨ stem.toList.any (fun c => c = '\x7b' || c = '\x7d') = true then
          "_".intercalate components else stem
      let candidate := match ending with
        | none => stem
        | some ending => stem ++ "." ++ ending
      (policy.sanitizeMachineFilename candidate).value

end Zemo.Organizer
