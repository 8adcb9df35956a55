import StylesheetTrace.Markup.Tag

/-!
# Business documents

A document is recognised by its root element, the first start tag in the beginning of its text.  It
is a business document when the local name of the root is one of the document types of UBL 2.1.
-/

namespace StylesheetTrace

open StylesheetTrace.Text StylesheetTrace.Markup

/-- What is known of a business document from its root element. -/
structure DocumentInfo where
  /-- The local name of the root element. -/
  rootElement : String
  /-- The namespace of the type. -/
  namespaceName : String
  /-- The type, named like the root and with a version. -/
  documentType : String
  /-- The root is an invoice or a credit note. -/
  isInvoiceOrCreditNote : Bool
  deriving Repr, DecidableEq

namespace DocumentInfo

/-- The document types of UBL 2.1, in alphabetical order. -/
def knownTypes : List String :=
  ["ApplicationResponse", "AttachedDocument", "AwardedNotification", "BillOfLading",
   "CallForTenders", "Catalogue", "CatalogueDeletion", "CatalogueItemSpecificationUpdate",
   "CataloguePricingUpdate", "CatalogueRequest", "CertificateOfOrigin", "ContractAwardNotice",
   "ContractNotice", "CreditNote", "DebitNote", "DespatchAdvice", "DigitalAgreement",
   "DigitalCapability", "DocumentStatus", "DocumentStatusRequest", "Enquiry", "EnquiryResponse",
   "ExceptionCriteria", "ExceptionNotification", "ExpressionOfInterestRequest",
   "ExpressionOfInterestResponse", "Forecast", "ForecastRevision", "FreightInvoice",
   "FulfilmentCancellation", "GoodsItemItinerary", "GuaranteeCertificate",
   "InstructionForReturns", "InventoryReport", "Invoice", "ItemInformationRequest", "Order",
   "OrderCancellation", "OrderChange", "OrderResponse", "OrderResponseSimple", "PackingList",
   "PriorInformationNotice", "ProductActivity", "Quotation", "ReceiptAdvice", "Reminder",
   "RemittanceAdvice", "RequestForQuotation", "RetailEvent", "SelfBilledCreditNote",
   "SelfBilledInvoice", "Statement", "StockAvailabilityReport", "Tender", "TenderReceipt",
   "TenderStatus", "TenderStatusRequest", "TenderWithdrawal", "TendererQualification",
   "TendererQualificationResponse", "TradeItemLocationProfile", "TransportExecutionPlan",
   "TransportExecutionPlanRequest", "TransportProgressStatus", "TransportProgressStatusRequest",
   "TransportServiceDescription", "TransportServiceDescriptionRequest", "TransportationStatus",
   "TransportationStatusRequest", "UnawardedNotification", "UnsubscribeFromProcedureRequest",
   "UnsubscribeFromProcedureResponse", "UtilityStatement", "Waybill", "WeightStatement"]

/-- How much of a text is searched for its root element. -/
def headSize : Nat := 2000

/-- The letters of a local name, before a blank, `/` or `>`. -/
def rootName? (s : List Char) : Option (List Char × List Char) :=
  match s.dropWhile Char.isAlpha with
  | c :: rest =>
    if (isBlank c || c == '/' || c == '>') && !(s.takeWhile Char.isAlpha).isEmpty then
      some (s.takeWhile Char.isAlpha, rest)
    else none
  | [] => none

/-- A start tag, read for its local name. -/
def startTag? : Reader (List Char)
  | '<' :: s => qualified isPlainPrefixChar [] rootName? s
  | _ => none

/-- The info for a document whose root has the given local name. -/
def ofRoot (root : String) : DocumentInfo :=
  { rootElement := root
    namespaceName := "urn:oasis:names:specification:ubl:schema:xsd:" ++ root ++ "-2"
    documentType := root ++ "-2"
    isInvoiceOrCreditNote := root == "Invoice" || root == "CreditNote" }

/-- The info for the document that a text holds, if it is a business document. -/
def detect? (content : String) : Option DocumentInfo :=
  (firstForm? startTag? (content.toList.take headSize)).bind fun root =>
    let root := String.ofList root
    if knownTypes.contains root then some (ofRoot root) else none

end DocumentInfo

end StylesheetTrace
