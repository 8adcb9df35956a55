import StylesheetTrace.RuleTable

/-!
# The built-in table

The targets of the rules of EN 16931 and of Peppol that are checked at the root of a document.
-/

namespace StylesheetTrace.RuleTable

/-- The rules of EN 16931. -/
def europeanRules : List (String × List String) :=
  [("BR-01", ["CustomizationID"]),
   ("BR-02", ["ID"]),
   ("BR-03", ["IssueDate"]),
   ("BR-04", ["InvoiceTypeCode", "CreditNoteTypeCode"]),
   ("BR-05", ["DocumentCurrencyCode"]),
   ("BR-06", ["RegistrationName", "PartyLegalEntity", "AccountingSupplierParty"]),
   ("BR-07", ["RegistrationName", "PartyLegalEntity", "AccountingCustomerParty"]),
   ("BR-08", ["PostalAddress", "AccountingSupplierParty"]),
   ("BR-09", ["AddressLine", "PostalAddress", "AccountingSupplierParty"]),
   ("BR-10", ["PostalAddress", "AccountingCustomerParty"]),
   ("BR-11", ["IdentificationCode", "Country", "PostalAddress"]),
   ("BR-12", ["LineExtensionAmount", "LegalMonetaryTotal"]),
   ("BR-13", ["TaxExclusiveAmount", "LegalMonetaryTotal"]),
   ("BR-14", ["TaxInclusiveAmount", "LegalMonetaryTotal"]),
   ("BR-15", ["PayableAmount", "LegalMonetaryTotal"]),
   ("BR-16", ["InvoiceLine", "CreditNoteLine"]),
   ("BR-17", ["PayableRoundingAmount", "LegalMonetaryTotal"]),
   ("BR-51", ["PrimaryAccountNumberID", "CardAccount"]),
   ("BR-52", ["ID", "AdditionalDocumentReference"]),
   ("BR-53", ["TaxCurrencyCode", "TaxAmount", "TaxTotal"]),
   ("BR-55", ["EndpointID", "AccountingSupplierParty"]),
   ("BR-56", ["CompanyID", "PartyTaxScheme", "AccountingSupplierParty"]),
   ("BR-57", ["IdentificationCode", "Country", "DeliveryLocation"]),
   ("BR-61", ["PaymentMeansCode", "PaymentMeans"]),
   ("BR-62", ["EndpointID", "AccountingSupplierParty"]),
   ("BR-63", ["EndpointID", "AccountingCustomerParty"]),
   ("BR-64", ["LineExtensionAmount", "InvoiceLine"]),
   ("BR-65", ["TaxableAmount", "TaxSubtotal", "TaxTotal"]),
   ("BR-66", ["CardAccount", "PaymentMeans"]),
   ("BR-67", ["PaymentMandate", "PaymentMeans"]),
   ("BR-CO-03", ["TaxPointDate", "InvoicePeriod"]),
   ("BR-CO-04", ["PayableAmount", "LegalMonetaryTotal"]),
   ("BR-CO-10", ["LineExtensionAmount", "LegalMonetaryTotal"]),
   ("BR-CO-11", ["AllowanceTotalAmount", "LegalMonetaryTotal"]),
   ("BR-CO-12", ["ChargeTotalAmount", "LegalMonetaryTotal"]),
   ("BR-CO-13", ["TaxExclusiveAmount", "LegalMonetaryTotal"]),
   ("BR-CO-15", ["TaxInclusiveAmount", "LegalMonetaryTotal"]),
   ("BR-CO-16", ["PayableAmount", "LegalMonetaryTotal"]),
   ("BR-CO-18", ["TaxSubtotal", "TaxTotal"]),
   ("BR-CO-25", ["PaymentDueDate", "PaymentTerms"]),
   ("BR-CO-26", ["PrepaidAmount", "LegalMonetaryTotal"]),
   ("BR-DEC-09", ["LineExtensionAmount", "LegalMonetaryTotal"]),
   ("BR-DEC-10", ["AllowanceTotalAmount", "LegalMonetaryTotal"]),
   ("BR-DEC-11", ["ChargeTotalAmount", "LegalMonetaryTotal"]),
   ("BR-DEC-12", ["TaxExclusiveAmount", "LegalMonetaryTotal"]),
   ("BR-DEC-13", ["TaxAmount", "TaxTotal"]),
   ("BR-DEC-14", ["TaxInclusiveAmount", "LegalMonetaryTotal"]),
   ("BR-DEC-15", ["TaxAmount", "TaxTotal"]),
   ("BR-DEC-16", ["PrepaidAmount", "LegalMonetaryTotal"]),
   ("BR-DEC-17", ["PayableRoundingAmount", "LegalMonetaryTotal"]),
   ("BR-DEC-18", ["PayableAmount", "LegalMonetaryTotal"])]

/-- The rules of Peppol. -/
def peppolRules : List (String × List String) :=
  [("PEPPOL-EN16931-R001", ["CustomizationID"]),
   ("PEPPOL-EN16931-R002", ["ProfileID"]),
   ("PEPPOL-EN16931-R004", ["TaxAmount", "TaxTotal"]),
   ("PEPPOL-EN16931-R006", ["TaxAmount", "TaxTotal"]),
   ("PEPPOL-EN16931-R007", ["TaxCurrencyCode"]),
   ("PEPPOL-EN16931-R008", ["DocumentCurrencyCode"]),
   ("PEPPOL-EN16931-R010", ["EndpointID", "AccountingCustomerParty"]),
   ("PEPPOL-EN16931-R020", ["EndpointID", "AccountingSupplierParty"]),
   ("PEPPOL-EN16931-R053", ["OrderReference"]),
   ("PEPPOL-EN16931-R054", ["InvoicePeriod"]),
   ("PEPPOL-EN16931-R055", ["AccountingCustomerParty"]),
   ("PEPPOL-EN16931-R061", ["PaymentMeansCode", "PaymentMeans"]),
   ("PEPPOL-EN16931-R080", ["TaxSubtotal", "TaxTotal"]),
   ("PEPPOL-EN16931-R100", ["Note"]),
   ("PEPPOL-EN16931-R101", ["Note"])]

/-- The built-in table. -/
def default : RuleTable := ⟨europeanRules ++ peppolRules⟩

end StylesheetTrace.RuleTable
